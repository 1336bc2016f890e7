import DotMatrix.Cpu.Arithmetic
import DotMatrix.Cpu.Decode
import DotMatrix.Proofs.Checked.Word

namespace DotMatrix

namespace Flags

def checked (f : Flags) : Checked Flags := do
  let z ← Checked.mul 8 0x80 f.zero.toNat
  let n ← Checked.mul 8 0x40 f.sub.toNat
  let h ← Checked.mul 8 0x20 f.half.toNat
  let c ← Checked.mul 8 0x10 f.carry.toNat
  return ofByte (.ofNat (z ||| n ||| h ||| c))

-- A result that comes with flags.
def checkedResult {α : Type} (r : α × Flags) : Checked (α × Flags) := do
  let flags ← r.2.checked
  return (r.1, flags)

@[simp]
theorem checked_eq (f : Flags) : f.checked = some f := by
  rcases f with ⟨_ | _, _ | _, _ | _, _ | _⟩ <;> rfl

@[simp]
theorem checkedResult_eq {α : Type} (r : α × Flags) : checkedResult r = some r := by
  rw [checkedResult, checked_eq]
  rfl

end Flags

namespace Arithmetic

def checkedAddWithCarry (a b : UInt8) (carry : Bool) : Checked (UInt8 × Flags) := do
  let sum ← Checked.add 16 a.toNat b.toNat
  let sum ← Checked.add 16 sum carry.toNat
  let half ← Checked.add 8 (a.toNat % 0x10) (b.toNat % 0x10)
  let half ← Checked.add 8 half carry.toNat
  let result := UInt8.ofNat sum
  Flags.checkedResult (result, { zero := result == 0, half := 0xf < half, carry := 0xff < sum })

def checkedSubWithBorrow (a b : UInt8) (borrow : Bool) : Checked (UInt8 × Flags) := do
  let taken ← Checked.add 16 b.toNat borrow.toNat
  let half ← Checked.add 8 (b.toNat % 0x10) borrow.toNat
  let result := UInt8.ofNat (0x100 + a.toNat - taken)
  Flags.checkedResult (result, {
    zero  := result == 0
    sub   := true
    half  := a.toNat % 0x10 < half
    carry := a.toNat < taken })

def checkedAddWords (a b : UInt16) (f : Flags) : Checked (UInt16 × Flags) := do
  let half ← Checked.add 16 (a.toNat % 0x1000) (b.toNat % 0x1000)
  Flags.checkedResult (a + b, { f with
    sub   := false
    half  := 0xfff < half
    carry := 0xffff < a.toNat + b.toNat })

def checkedAddOffset (w : UInt16) (offset : UInt8) : Checked (UInt16 × Flags) := do
  let (_, f) ← checkedAddWithCarry (lowByte w) offset false
  return (w + signExtend offset, { f with zero := false, sub := false })

@[simp]
theorem checkedAddWithCarry_eq (a b : UInt8) (carry : Bool) :
    checkedAddWithCarry a b carry = some (addWithCarry a b carry) := by
  have ha := a.toNat_lt
  have hb := b.toNat_lt
  have hc := carry.toNat_lt
  rw [checkedAddWithCarry]
  simp (disch := omega) only [Checked.add_eq, Option.bind_eq_bind, Option.bind_some,
    Flags.checkedResult_eq]
  rfl

@[simp]
theorem checkedSubWithBorrow_eq (a b : UInt8) (borrow : Bool) :
    checkedSubWithBorrow a b borrow = some (subWithBorrow a b borrow) := by
  have hb := b.toNat_lt
  have hc := borrow.toNat_lt
  rw [checkedSubWithBorrow]
  simp (disch := omega) only [Checked.add_eq, Option.bind_eq_bind, Option.bind_some,
    Flags.checkedResult_eq]
  rfl

@[simp]
theorem checkedAddWords_eq (a b : UInt16) (f : Flags) :
    checkedAddWords a b f = some (addWords a b f) := by
  rw [checkedAddWords, Checked.add_eq (by omega)]
  simp only [Option.bind_eq_bind, Option.bind_some, Flags.checkedResult_eq]
  rfl

@[simp]
theorem checkedAddOffset_eq (w : UInt16) (offset : UInt8) :
    checkedAddOffset w offset = some (addOffset w offset) := by
  rw [checkedAddOffset, checkedAddWithCarry_eq]
  rfl

end Arithmetic

open Arithmetic in
def AluOp.checkedApply (op : AluOp) (a b : UInt8) (carry : Bool) : Checked (UInt8 × Flags) :=
  match op with
  | add => checkedAddWithCarry a b false
  | adc => checkedAddWithCarry a b carry
  | sub => checkedSubWithBorrow a b false
  | sbc => checkedSubWithBorrow a b carry
  | cp  => do
    let (_, flags) ← checkedSubWithBorrow a b false
    return (a, flags)
  | and | xor | or => Flags.checkedResult (op.apply a b carry)

@[simp]
theorem AluOp.checkedApply_eq (op : AluOp) (a b : UInt8) (carry : Bool) :
    op.checkedApply a b carry = some (op.apply a b carry) := by
  cases op <;> simp [checkedApply, apply]

namespace Instruction

-- The first table has an entry for each byte.
def checkedDecode (opcode : UInt8) : Checked (Option Instruction) := do
  let i ← Checked.index 0x100 opcode.toNat
  return decode (.ofNat i)

-- The operations of the second table stand in a list of eight.
def checkedDecodeSecond (opcode : UInt8) : Checked Instruction := do
  let y ← Checked.index 8 (bitField opcode 3 3)
  let p := Place.ofCode (bitField opcode 0 3)
  match bitField opcode 6 2 with
  | 0 => return shift (.ofCode y) p
  | 1 => return bit y p
  | 2 => return res y p
  | _ => return set y p

@[simp]
theorem checkedDecode_eq (opcode : UInt8) : checkedDecode opcode = some (decode opcode) := by
  rw [checkedDecode, Checked.index_eq opcode.toNat_lt]
  simp only [Option.bind_eq_bind, Option.bind_some, UInt8.ofNat_toNat]
  rfl

@[simp]
theorem checkedDecodeSecond_eq (opcode : UInt8) :
    checkedDecodeSecond opcode = some (decodeSecond opcode) := by
  have hy : bitField opcode 3 3 < 8 := bitField_lt opcode 3 3
  have hf : (.ofNat 8 (bitField opcode 3 3) : Fin 8) = ⟨bitField opcode 3 3, hy⟩ :=
    Fin.ext (Nat.mod_eq_of_lt hy)
  rw [checkedDecodeSecond, Checked.index_eq hy]
  simp only [Option.bind_eq_bind, Option.bind_some, decodeSecond, hf]
  generalize bitField opcode 6 2 = quarter
  rcases quarter with _ | _ | _ | _ <;> rfl

end Instruction
end DotMatrix
