import DotMatrix.Cartridge.SaveFile
import Mathlib.Algebra.Order.Ring.Nat

namespace DotMatrix

namespace Bytes

theorem ofLittleEndian_littleEndian {width n : Nat} (h : n < 256 ^ width) :
    ofLittleEndian (littleEndian width n) = n := by
  induction width generalizing n with
  | zero => simp at h; simp [littleEndian, ofLittleEndian, h]
  | succ width ih =>
    have hn : n / 256 < 256 ^ width := by
      rw [Nat.pow_succ] at h
      exact Nat.div_lt_of_lt_mul (Nat.mul_comm _ _ ▸ h)
    simp only [littleEndian, ofLittleEndian, ih hn, UInt8.toNat_ofNat']
    omega

end Bytes

namespace SaveFile

theorem size_encode (ram : Array UInt8) : (encode ram).size = 8 + ram.size := by
  simp [encode, lengthBytes]

theorem extract_encode (ram : Array UInt8) : (encode ram).extract 8 (8 + ram.size) = ram := by
  apply Array.toList_inj.mp
  simp [encode, lengthBytes]

theorem announced_encode {ram : Array UInt8} (h : ram.size < 2 ^ 64) :
    announced (encode ram) = ram.size := by
  have hs : (Bytes.littleEndian lengthBytes ram.size).length = lengthBytes := by simp
  simp only [announced, encode]
  rw [Array.toList_extract, Array.toList_append, List.extract_eq_take_drop]
  simp only [List.drop_zero, Nat.sub_zero]
  rw [List.take_left' hs]
  exact Bytes.ofLittleEndian_littleEndian h

section Decode

variable {file : Array UInt8}

theorem decode_of_le (h : 8 + announced file ≤ file.size) :
    decode file = some (file.extract 8 (8 + announced file)) := by
  rw [decode, if_pos]
  · rfl
  · exact ⟨Nat.le_of_add_right_le h, h⟩

theorem decode_of_short (h : file.size < 8 + announced file) : decode file = none := by
  rw [decode, if_neg]
  exact fun hl => Nat.not_le.mpr h hl.right

theorem size_extract (h : 8 + announced file ≤ file.size) :
    (file.extract 8 (8 + announced file)).size = announced file := by
  rw [Array.size_extract, Nat.min_eq_left h, Nat.add_sub_cancel_left]

end Decode

theorem decode_encode {ram : Array UInt8} (h : ram.size < 2 ^ 64) :
    decode (encode ram) = some ram := by
  have hn := announced_encode h
  rw [decode_of_le (by rw [hn, size_encode]), hn, extract_encode]

end SaveFile
end DotMatrix
