import DotMatrix.Bits
import DotMatrix.Counter

namespace DotMatrix

-- A divider that counts every 256 ticks, and a counter of selectable rate that reloads and requests
-- an interrupt when it overflows.
structure Timer where
  div      : UInt8 := 0
  tima     : UInt8 := 0
  -- The value that `tima` takes up again after an overflow.
  tma      : UInt8 := 0
  tac      : UInt8 := 0
  divTicks  : Counter := .ofPeriod 256
  timaTicks : Counter := .ofPeriod 1024
  deriving Repr, DecidableEq, Inhabited

namespace Timer

-- Ticks between two increments of `tima` under a control value.
def period (tac : UInt8) : Nat :=
  match bitField tac 0 2 with
  | 0 => 1024
  | 1 => 16
  | 2 => 64
  | _ => 256

def running (t : Timer) : Bool := testBit t.tac 2

-- One increment of `tima`, with the number of overflows so far.
def increment (tma : UInt8) : Nat × UInt8 → Nat × UInt8
  | (overflows, tima) => if tima = 0xff then (overflows + 1, tma) else (overflows, tima + 1)

-- The timer after some ticks, and the number of interrupts it requested meanwhile.
def advance (t : Timer) (ticks : Nat) : Nat × Timer :=
  let (divEdges, divTicks) := t.divTicks.run ticks
  let t := { t with div := t.div + UInt8.ofNat divEdges, divTicks }
  if t.running then
    let (edges, timaTicks) := t.timaTicks.run ticks
    let (overflows, tima) := Nat.repeat (increment t.tma) edges (0, t.tima)
    (overflows, { t with tima, timaTicks })
  else
    (0, t)

-- Any write to the divider clears it, and the ticks collected by both counters with it.
def resetDiv (t : Timer) : Timer :=
  { t with div := 0, divTicks := t.divTicks.reset, timaTicks := t.timaTicks.reset }

def setTima (t : Timer) (v : UInt8) : Timer := { t with tima := v }

def setTma (t : Timer) (v : UInt8) : Timer := { t with tma := v }

-- The control register as the program sees it: unused bits read as ones.
def control (t : Timer) : UInt8 := t.tac ||| 0xf8

def setControl (t : Timer) (v : UInt8) : Timer :=
  { t with tac := v &&& 0x7, timaTicks := t.timaTicks.rearm (period v) }

end Timer
end DotMatrix
