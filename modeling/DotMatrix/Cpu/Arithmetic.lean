import DotMatrix.Cpu.Flags

namespace DotMatrix

namespace Arithmetic

def addWithCarry (a b : UInt8) (carry : Bool) : UInt8 × Flags :=
  let sum := a.toNat + b.toNat + carry.toNat
  let result := UInt8.ofNat sum
  (result, {
    zero  := result == 0
    half  := 0xf < a.toNat % 0x10 + b.toNat % 0x10 + carry.toNat
    carry := 0xff < sum })

def subWithBorrow (a b : UInt8) (borrow : Bool) : UInt8 × Flags :=
  let taken := b.toNat + borrow.toNat
  let result := UInt8.ofNat (0x100 + a.toNat - taken)
  (result, {
    zero  := result == 0
    sub   := true
    half  := a.toNat % 0x10 < b.toNat % 0x10 + borrow.toNat
    carry := a.toNat < taken })

-- An increment, which leaves the carry alone.
def inc (v : UInt8) (f : Flags) : UInt8 × Flags :=
  let result := v + 1
  (result, { f with zero := result == 0, sub := false, half := result &&& 0xf == 0 })

-- A decrement, which leaves the carry alone.
def dec (v : UInt8) (f : Flags) : UInt8 × Flags :=
  let result := v - 1
  (result, { f with zero := result == 0, sub := true, half := result &&& 0xf == 0xf })

-- Corrects the sum or difference of two packed decimal bytes to a packed decimal byte.
def decimalAdjust (a : UInt8) (f : Flags) : UInt8 × Flags :=
  let (result, carry) :=
    if f.sub then
      let r := if f.carry then a - 0x60 else a
      (if f.half then r - 0x06 else r, f.carry)
    else
      let carry := f.carry || 0x99 < a
      let r := if carry then a + 0x60 else a
      (if f.half || 0x9 < r &&& 0xf then r + 0x06 else r, carry)
  (result, { f with zero := result == 0, half := false, carry })

-- The sum of two words. The flags see a carry across bit 11 and one out of bit 15.
def addWords (a b : UInt16) (f : Flags) : UInt16 × Flags :=
  (a + b, { f with
    sub   := false
    half  := 0xfff < a.toNat % 0x1000 + b.toNat % 0x1000
    carry := 0xffff < a.toNat + b.toNat })

-- The flags are those of the unsigned addition to the low byte, whatever the offset's sign.
def addOffset (w : UInt16) (offset : UInt8) : UInt16 × Flags :=
  let (_, f) := addWithCarry (lowByte w) offset false
  (w + signExtend offset, { f with zero := false, sub := false })

end Arithmetic

-- The operations that combine the accumulator with an operand.
inductive AluOp
  | add
  | adc
  | sub
  | sbc
  | and
  | xor
  | or
  | cp
  deriving Repr, DecidableEq

open Arithmetic in
-- The new accumulator and flags. A comparison subtracts but keeps the accumulator.
def AluOp.apply (op : AluOp) (a b : UInt8) (carry : Bool) : UInt8 × Flags :=
  match op with
  | add => addWithCarry a b false
  | adc => addWithCarry a b carry
  | sub => subWithBorrow a b false
  | sbc => subWithBorrow a b carry
  | cp  => (a, (subWithBorrow a b false).2)
  | and => let r := a &&& b; (r, { zero := r == 0, half := true })
  | xor => let r := a ^^^ b; (r, { zero := r == 0 })
  | or  => let r := a ||| b; (r, { zero := r == 0 })

-- Rotations, through the carry flag or past it.
inductive Rotation
  | rlc
  | rrc
  | rl
  | rr
  deriving Repr, DecidableEq

inductive Shift
  | rotate (r : Rotation)
  | sla
  | sra
  | swap
  | srl
  deriving Repr, DecidableEq

-- The rotated byte and the bit that falls out.
def Rotation.apply (r : Rotation) (v : UInt8) (carry : Bool) : UInt8 × Bool :=
  match r with
  | rlc => (v <<< 1 ||| v >>> 7, testBit v 7)
  | rrc => (v >>> 1 ||| v <<< 7, testBit v 0)
  | rl  => (v <<< 1 ||| bitIf carry 0, testBit v 7)
  | rr  => (v >>> 1 ||| bitIf carry 7, testBit v 0)

-- The shifted byte and the bit that falls out.
def Shift.apply (s : Shift) (v : UInt8) (carry : Bool) : UInt8 × Bool :=
  match s with
  | rotate r => r.apply v carry
  | sla      => (v <<< 1, testBit v 7)
  | sra      => (v >>> 1 ||| v &&& 0x80, testBit v 0)
  | swap     => (v <<< 4 ||| v >>> 4, false)
  | srl      => (v >>> 1, testBit v 0)

-- The shifted byte and the flags.
def Shift.applyFlags (s : Shift) (v : UInt8) (carry : Bool) : UInt8 × Flags :=
  let (result, out) := s.apply v carry
  (result, { zero := result == 0, carry := out })

end DotMatrix
