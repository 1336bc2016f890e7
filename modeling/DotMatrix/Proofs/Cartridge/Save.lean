import DotMatrix.Proofs.Checked.Memory

namespace DotMatrix.Cartridge

-- Puts a save into RAM. There must be as many bytes as the RAM has, and none or a power of two.
def loadSave (ram : Array UInt8) : ExceptT CartridgeError (StateM Cartridge) Unit := do
  let c ← get
  if h : ram.size = c.header.ramBytes then
    if ram.size = 0 ∨ ram.size.isPowerOfTwo then set { c with ram := ⟨ram, h⟩ }
    else throw (.saveMismatch c.header.ramBytes ram.size)
  else throw (.saveMismatch c.header.ramBytes ram.size)

theorem Header.romBytes_isPowerOfTwo (h : Header) : h.romBytes.isPowerOfTwo :=
  ⟨_, h.romBytes_eq_shift.trans (Nat.one_shiftLeft _)⟩

-- The RAM of every header has one of those sizes.
theorem Header.ramBytes_isPowerOfTwo (h : Header) (hz : h.ramBytes ≠ 0) :
    h.ramBytes.isPowerOfTwo := by
  obtain ⟨k, hk⟩ := h.ramBytes_eq_shift hz
  exact ⟨k, hk.trans (Nat.one_shiftLeft k)⟩

variable (c : Cartridge) {ram : Array UInt8}

theorem restore_of_size_eq (h : ram.size = c.header.ramBytes) :
    c.restore ram = .ok { c with ram := ⟨ram, h⟩ } := by
  rw [restore, dif_pos h]
  rfl

theorem restore_of_size_ne (h : ram.size ≠ c.header.ramBytes) :
    c.restore ram = .error (.saveMismatch c.header.ramBytes ram.size) := by
  rw [restore, dif_neg h]
  rfl

-- It goes like `restore`, and a save that is refused leaves the cartridge as it was.
theorem loadSave_run (ram : Array UInt8) : (loadSave ram).run.run c =
    match c.restore ram with
    | .ok loaded => (.ok (), loaded)
    | .error e   => (.error e, c) := by
  change (dite (ram.size = c.header.ramBytes) _ _ : ExceptT _ (StateM _) _).run.run c = _
  by_cases h : ram.size = c.header.ramBytes
  case pos =>
    have hp : ram.size = 0 ∨ ram.size.isPowerOfTwo := by
      by_cases hz : c.header.ramBytes = 0
      case pos => exact .inl (h.trans hz)
      case neg => exact .inr (h ▸ c.header.ramBytes_isPowerOfTwo hz)
    rw [c.restore_of_size_eq h, dif_pos h, if_pos hp]
    rfl
  case neg =>
    rw [c.restore_of_size_ne h, dif_neg h]
    rfl

end DotMatrix.Cartridge
