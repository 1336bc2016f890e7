namespace DotMatrix

-- Bit `i` of a byte.
def testBit (b : UInt8) (i : Nat) : Bool := b.toNat.testBit i

-- The number in the `width` bits of `b` from bit `low` on.
def bitField (b : UInt8) (low width : Nat) : Nat := (b.toNat >>> low) % (1 <<< width)

-- The byte whose only set bit is bit `i`, provided the condition holds.
def bitIf (c : Bool) (i : UInt8) : UInt8 := if c then 1 <<< i else 0

def lowByte (w : UInt16) : UInt8 := w.toUInt8

def highByte (w : UInt16) : UInt8 := (w >>> 8).toUInt8

-- The word with the given bytes.
def word (low high : UInt8) : UInt16 := high.toUInt16 <<< 8 ||| low.toUInt16

-- A byte read as a two's-complement number, extended to a word.
def signExtend (b : UInt8) : UInt16 := b.toInt8.toInt16.toUInt16

end DotMatrix
