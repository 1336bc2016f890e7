import DotMatrix.Bits
import DotMatrix.Counter

namespace DotMatrix.Sound

-- A volume of four bits that moves one step up or down in every period, until it reaches an end of
-- its range.
structure Envelope where
  initial  : Nat := 0
  volume   : Nat := 0
  increase : Bool := false
  -- Absent for an envelope that keeps its volume.
  ticks    : Option Counter := none
  deriving Repr, DecidableEq, Inhabited

namespace Envelope

-- Ticks per unit of pace.
def step : Nat := 65536

def loudest : Nat := 15

-- The envelope that a volume register describes, at its start.
def ofRegister (b : UInt8) : Envelope :=
  let pace := bitField b 0 3
  { initial  := bitField b 4 4
    volume   := bitField b 4 4
    increase := testBit b 3
    ticks    := if pace = 0 then none else some (.ofPeriod (pace * step)) }

-- One step of the volume.
def move (increase : Bool) (volume : Nat) : Nat :=
  if increase then min loudest (volume + 1) else volume - 1

def clock (e : Envelope) (ticks : Nat) : Envelope :=
  match e.ticks with
  | none => e
  | some counter =>
    let (edges, counter) := counter.run ticks
    { e with ticks := some counter, volume := Nat.repeat (move e.increase) edges e.volume }

-- An initial volume of zero switches the channel's output off for good.
def apply (e : Envelope) (sample : Float32) : Float32 :=
  if e.initial = 0 then 0.0 else sample * Float32.ofNat e.volume / 15.0

end Envelope
end DotMatrix.Sound
