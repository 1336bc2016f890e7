import DotMatrix.Bits

namespace DotMatrix

structure Flags where
  zero  : Bool := false
  -- The last arithmetic operation was a subtraction.
  sub   : Bool := false
  -- A carry or borrow across bit 3.
  half  : Bool := false
  carry : Bool := false
  deriving Repr, DecidableEq, Inhabited

namespace Flags

-- One bit for each flag in the high nibble. The low nibble does not exist.
def toByte (f : Flags) : UInt8 :=
  bitIf f.zero 7 ||| bitIf f.sub 6 ||| bitIf f.half 5 ||| bitIf f.carry 4

def ofByte (b : UInt8) : Flags where
  zero  := testBit b 7
  sub   := testBit b 6
  half  := testBit b 5
  carry := testBit b 4

@[simp]
theorem ofByte_toByte (f : Flags) : ofByte f.toByte = f := by
  rcases f with ⟨_ | _, _ | _, _ | _, _ | _⟩ <;> rfl

theorem toByte_low (f : Flags) : f.toByte &&& 0x0f = 0 := by
  rcases f with ⟨_ | _, _ | _, _ | _, _ | _⟩ <;> rfl

end Flags
end DotMatrix
