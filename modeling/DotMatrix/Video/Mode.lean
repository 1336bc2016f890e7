namespace DotMatrix.Video

inductive Mode
  | hblank
  | vblank
  | oamScan
  | transfer
  deriving Repr, DecidableEq, Inhabited

namespace Mode

-- The number that the status register shows.
def number : Mode → UInt8
  | hblank   => 0
  | vblank   => 1
  | oamScan  => 2
  | transfer => 3

-- The ticks spent in the mode before the next one, or in the blank before the next line.
def dots : Mode → Nat
  | oamScan  => 80
  | transfer => 168
  | hblank   => 208
  | vblank   => 456

-- The status bit that asks for an interrupt when the mode is entered.
def source : Mode → Option Nat
  | hblank   => some 3
  | vblank   => some 4
  | oamScan  => some 5
  | transfer => none

end Mode
end DotMatrix.Video
