import DotMatrix.Bits

namespace DotMatrix.Sound

-- The setting of a pulse or wave channel: eleven bits in a low byte and a control byte.
def frequency (low control : UInt8) : Nat := bitField control 0 3 * 0x100 + low.toNat

-- Ticks between two steps of the wave form, `unit` for the highest setting.
def periodOf (unit frequency : Nat) : Nat := (2048 - frequency) * unit

namespace Control

def triggers (b : UInt8) : Bool := testBit b 7

def lengthOn (b : UInt8) : Bool := testBit b 6

-- The trigger bit acts when it is written and is not kept.
def kept (b : UInt8) : UInt8 := b &&& 0x7f

-- A control byte as the program sees it: only the length bit can be read.
def shown (b : UInt8) : UInt8 := 0xbf ||| (b &&& 0x40)

-- Replaces the frequency bits.
def setFrequency (b : UInt8) (frequency : Nat) : UInt8 :=
  (b &&& 0xf8) ||| .ofNat (frequency / 0x100 % 8)

end Control
end DotMatrix.Sound
