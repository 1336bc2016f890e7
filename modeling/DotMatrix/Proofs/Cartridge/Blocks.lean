import DotMatrix.Cartridge.Basic
import DotMatrix.Proofs.Cartridge.Image
import DotMatrix.Proofs.Memory

namespace DotMatrix.Cartridge

namespace BankRegisters

variable {h : Header} {r : BankRegisters} {a b : UInt16} {i : Nat}

theorem romOffset_mod (h : Header) (r : BankRegisters) (a : UInt16) :
    r.romOffset h a % romBankSize = a.toNat % romBankSize := by
  simp only [romOffset]
  split
  · rfl
  · rw [Nat.mul_add_mod_self_right, Nat.mod_mod]

-- Both addresses lie in one bank, so the registers give them the same one.
theorem romOffset_add (hb : b.toNat = a.toNat + i) (hi : a.toNat % romBankSize + i < romBankSize) :
    r.romOffset h b = r.romOffset h a + i := by
  simp only [romBankSize] at hi
  simp only [romOffset, hb, romBankSize, Nat.testBit_eq_decide_div_mod_eq]
  split
  · rfl
  · have hd : (a.toNat + i) / 16384 = a.toNat / 16384 := by omega
    have hm : (a.toNat + i) % 16384 = a.toNat % 16384 + i := by omega
    simp only [Nat.reducePow, hd, hm, Nat.add_assoc]

theorem ramOffset?_add (hb : b.toNat = a.toNat + i)
    (hi : a.toNat % ramBankSize + i < ramBankSize) :
    r.ramOffset? h b = (r.ramOffset? h a).map (· + i) := by
  simp only [ramBankSize] at hi
  have hm : (a.toNat + i) % ramBankSize = a.toNat % ramBankSize + i := by
    simp only [ramBankSize]
    omega
  simp only [ramOffset?, hb, hm]
  split
  · rfl
  split
  · simp only [Option.map_some, Nat.add_assoc]
  · rfl

theorem ramOffset?_mod {offset : Nat} (ho : r.ramOffset? h a = some offset) :
    offset % ramBankSize = a.toNat % ramBankSize := by
  simp only [ramOffset?] at ho
  split at ho
  · rw [← Option.some.inj ho, Nat.mod_mod]
  split at ho
  · rw [← Option.some.inj ho, Nat.mul_add_mod_self_right, Nat.mod_mod]
  · cases ho

end BankRegisters

variable (c : Cartridge) {a : UInt16} {length : Nat}

theorem toNat_add {bank i : Nat} (hb : bank ∣ 0x10000) (hi : a.toNat % bank + i < bank) :
    (a + .ofNat i).toNat = a.toNat + i := by
  have ha : a.toNat % 0x10000 + (i + 1) ≤ 0x10000 := Memory.mod_add_le hb (by decide) hi
  have := a.toNat_lt
  rw [UInt16.toNat_add, UInt16.toNat_ofNat']
  omega

theorem romBlock?_eq_ofFn (hl : a.toNat % romBankSize + length ≤ romBankSize) :
    c.romBlock? a length = some (.ofFn fun i : Fin length => c.readRom (a + .ofNat i)) := by
  have hs : romBankSize ∣ c.header.romBytes := romBytes_eq _ ▸ Nat.dvd_mul_right _ _
  rw [romBlock?, Memory.block?_eq_ofFn]
  case hl => exact fun hz => absurd hz (Nat.ne_of_gt (romBytes_pos _))
  case hs =>
    refine fun hz => Memory.mod_add_le hs hz ?_
    rwa [BankRegisters.romOffset_mod]
  refine congrArg (some <| Array.ofFn ·) (funext fun i => ?_)
  have hi : a.toNat % romBankSize + i < romBankSize := by omega
  rw [readRom, BankRegisters.romOffset_add (toNat_add (by decide) hi) hi]

theorem ramBlock?_eq_ofFn (hl : a.toNat % ramBankSize + length ≤ ramBankSize)
    (ho : c.header.ramBytes = 0 ∨ c.banks.ramOffset? c.header a = none →
      length ≤ Memory.openBusLimit) :
    c.ramBlock? a length = some (.ofFn fun i : Fin length => c.readRam (a + .ofNat i)) := by
  have hs : ramBankSize ∣ c.header.ramBytes := by
    unfold Header.ramBytes
    exact Nat.dvd_mul_left _ _
  have hr (i : Fin length) : c.banks.ramOffset? c.header (a + .ofNat i) =
      (c.banks.ramOffset? c.header a).map (· + i.val) := by
    have hi : a.toNat % ramBankSize + i < ramBankSize := by omega
    exact BankRegisters.ramOffset?_add (toNat_add (by decide) hi) hi
  simp only [ramBlock?, readRam, hr]
  cases hb : c.banks.ramOffset? c.header a with
  | none        => exact Memory.openBusBlock?_eq_ofFn (ho (.inr hb))
  | some offset =>
    refine Memory.block?_eq_ofFn _ (fun hz => ho (.inl hz)) fun hz => Memory.mod_add_le hs hz ?_
    rwa [BankRegisters.ramOffset?_mod hb]

end DotMatrix.Cartridge
