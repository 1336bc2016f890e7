import DotMatrix.Bits

namespace DotMatrix

-- The lines, from the first served on. Line 3 belongs to a serial link that never raises it.
inductive Interrupt
  | vblank
  | stat
  | timer
  | joypad
  deriving Repr, DecidableEq

def Interrupt.line : Interrupt → Fin 5
  | vblank => 0
  | stat   => 1
  | timer  => 2
  | joypad => 4

-- A device latches a request on its line, and the program enables lines.
structure Interrupts where
  enabled   : UInt8 := 0
  requested : UInt8 := 0
  deriving Repr, DecidableEq, Inhabited

namespace Interrupts

def lines : UInt8 := 0x1f

def request (s : Interrupts) (i : Interrupt) : Interrupts :=
  { s with requested := s.requested ||| bitIf true (.ofNat i.line) }

-- Latches a request if the condition holds.
def requestIf (s : Interrupts) (c : Bool) (i : Interrupt) : Interrupts :=
  if c then s.request i else s

-- The lines that are enabled and requested.
def active (s : Interrupts) : UInt8 := s.enabled &&& s.requested &&& lines

def pending (s : Interrupts) : Bool := s.active != 0

-- The lowest set bit among the five lines of a byte.
def lowestLine? (b : UInt8) : Option (Fin 5) :=
  (List.finRange 5).find? fun i => testBit b i

-- Serving a line clears its request and no other.
def acknowledge (s : Interrupts) : Option (Fin 5) × Interrupts :=
  match lowestLine? s.active with
  | none   => (none, s)
  | some i => (some i, { s with requested := s.requested &&& ~~~bitIf true (.ofNat i) })

-- The request register as the program sees it: bits without a line read as ones.
def flags (s : Interrupts) : UInt8 := s.requested ||| ~~~lines

def setFlags (s : Interrupts) (v : UInt8) : Interrupts := { s with requested := v &&& lines }

end Interrupts
end DotMatrix
