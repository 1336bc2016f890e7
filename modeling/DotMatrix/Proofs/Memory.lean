import DotMatrix.Memory

namespace DotMatrix.Memory

variable {size : Nat}

theorem read_eq_getD (m : Memory size) (offset : Nat) (h : 0 < size) :
    m.read offset = m.toArray.getD (offset % size) 0 := by
  rw [read_eq_getElem m (Nat.mod_lt offset h)]
  simp [Array.getD, Nat.mod_lt offset h]

theorem read_eq_get (m : Memory size) (i : Fin size) : m.read i = m.get i := by
  rw [read_eq_getElem m (Nat.mod_lt _ i.pos)]
  simp only [Nat.mod_eq_of_lt i.isLt]
  rfl

theorem read_congr (m : Memory size) {i j : Nat} (h : i % size = j % size) :
    m.read i = m.read j := by
  by_cases hs : 0 < size
  · simp [read_eq_getElem m (Nat.mod_lt _ hs), h]
  · simp [read, hs]

theorem get_set (m : Memory size) (i j : Fin size) (v : UInt8) :
    (m.set i v i.isLt).get j = if i = j then v else m.get j := by
  simp only [Fin.ext_iff]
  exact Vector.getElem_set ..

theorem getD_zeros (size i : Nat) : (zeros size).toArray.getD i 0 = 0 := by
  rw [zeros, Vector.toArray_replicate, Array.getD_eq_getD_getElem?, Array.getElem?_replicate]
  split <;> rfl

theorem getD_write (m : Memory size) {offset : Nat} (h : offset < size) (v : UInt8) (i : Nat) :
    (m.write offset v).toArray.getD i 0 = if offset = i then v else m.toArray.getD i 0 := by
  have hm : offset % size = offset := Nat.mod_eq_of_lt h
  rw [write_eq_set m v (hm.symm ▸ h), Vector.toArray_set, Array.getD_eq_getD_getElem?,
    Array.getElem?_set]
  simp only [hm]
  split
  · rfl
  · rw [Array.getD_eq_getD_getElem?]

theorem openBusBlock?_eq_ofFn {length : Nat} (h : length ≤ openBusLimit) :
    openBusBlock? length = some (.ofFn fun _ : Fin length => openBus) := by
  simp only [openBusBlock?, if_pos h, Option.some.injEq]
  apply Array.ext <;> simp

-- A block that does not run over the end of its memory holds what is read one byte at a time. For
-- a memory of no bytes that is the open bus.
theorem block?_eq_ofFn (m : Memory size) {offset length : Nat}
    (hl : size = 0 → length ≤ openBusLimit) (hs : 0 < size → offset % size + length ≤ size) :
    m.block? offset length = some (.ofFn fun i : Fin length => m.read (offset + i)) := by
  cases Nat.eq_zero_or_pos size
  case inl h =>
    subst h
    simp only [block?, if_true, openBusBlock?_eq_ofFn (hl rfl), read_of_size_zero]
  case inr h =>
    have hs := hs h
    simp only [block?, Nat.ne_of_gt h, if_false, if_pos hs, Option.some.injEq]
    apply Array.ext
    case h₁ => simp [Nat.min_eq_left hs]
    case h₂ =>
      intro i _ hi
      have hi : i < length := by simpa using hi
      have hm : (offset + i) % size = offset % size + i := by
        rw [Nat.add_mod, Nat.mod_eq_of_lt (a := i) (by omega), Nat.mod_eq_of_lt (by omega)]
      simp [read_eq_getElem m (Nat.mod_lt (offset + i) h), hm]

-- A memory made of whole banks wraps between banks only.
theorem mod_add_le {bank offset length : Nat} (hb : bank ∣ size) (hs : 0 < size)
    (h : offset % bank + length ≤ bank) : offset % size + length ≤ size := by
  have ⟨banks, hb⟩ := hb
  have hz : 0 < banks := Nat.pos_of_mul_pos_left (hb ▸ hs)
  have hq : bank * (offset / bank % banks) + bank ≤ size :=
    hb ▸ Nat.mul_le_mul_left bank (Nat.mod_lt (offset / bank) hz)
  rw [hb, Nat.mod_mul, ← hb]
  omega

end DotMatrix.Memory
