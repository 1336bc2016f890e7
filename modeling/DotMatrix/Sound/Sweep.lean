import DotMatrix.Bits
import DotMatrix.Counter

namespace DotMatrix.Sound

-- In every period the frequency setting moves by a fraction of itself. A step that leaves the range
-- of settings silences the channel.
structure Sweep where
  nr10  : UInt8 := 0
  -- Absent while the pace is zero.
  ticks : Option Counter := none
  deriving Repr, DecidableEq, Inhabited

namespace Sweep

-- Ticks per unit of pace.
def step : Nat := 32768

-- What a sweep asks of its channel.
inductive Action
  | nothing
  | disable
  | setFrequency (frequency : Nat)
  deriving Repr, DecidableEq

def period (s : Sweep) : Nat := bitField s.nr10 4 3 * step

-- A new pace keeps the ticks collected under the old one.
def setRegister (s : Sweep) (v : UInt8) : Sweep :=
  let s := { s with nr10 := v }
  match s.period, s.ticks with
  | 0, _            => { s with ticks := none }
  | period, some c  => { s with ticks := some (c.rearm period) }
  | period, none    => { s with ticks := some (.ofPeriod period) }

-- Starts the period anew.
def trigger (s : Sweep) : Sweep :=
  { s with ticks := if s.period = 0 then none else some (.ofPeriod s.period) }

-- The setting after one step, if it stays in range.
def next? (s : Sweep) (frequency : Nat) : Option Nat :=
  let offset := frequency >>> bitField s.nr10 0 3
  let next := if testBit s.nr10 3 then frequency - offset else frequency + offset
  if 1 ≤ next ∧ next ≤ 0x7ff then some next else none

-- What some steps in a row come to. A step out of range cancels those before it.
def follow (s : Sweep) (frequency : Nat) (soFar : Action) : Nat → Action
  | 0 => soFar
  | steps + 1 =>
    match s.next? frequency with
    | some next => s.follow next (.setFrequency next) steps
    | none      => .disable

def clock (s : Sweep) (ticks frequency : Nat) : Action × Sweep :=
  match s.ticks with
  | none => (.nothing, s)
  | some counter =>
    let (edges, counter) := counter.run ticks
    (s.follow frequency .nothing edges, { s with ticks := some counter })

end Sweep
end DotMatrix.Sound
