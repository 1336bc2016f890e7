import DotMatrix.Proofs.Cartridge.Blocks
import DotMatrix.Proofs.Cartridge.Ram
import DotMatrix.Proofs.Checked.Memory

namespace DotMatrix.Cartridge

-- The RAM window shows RAM: there is some, and it is not switched off.
def ShowsRam (c : Cartridge) : Prop :=
  c.header.ramBytes ≠ 0 ∧ (c.header.kind = .romOnly ∨ c.banks.ramEnabled)

instance (c : Cartridge) : Decidable c.ShowsRam := inferInstanceAs (Decidable (_ ∧ _))

-- A block holds what is read at the addresses from one on, none of which wraps around.
def HoldsReads {length : Nat} (read : UInt16 → UInt8) (a : UInt16) (block : Vector UInt8 length) :
    Prop :=
  ∀ i : Fin length, ∃ b : UInt16, b.toNat = a.toNat + i ∧ block.get i = read b

variable {c : Cartridge} {a : UInt16} {length : Nat}

theorem exists_holdsReads {bank : Nat} (read : UInt16 → UInt8) (hb : bank ∣ 0x10000)
    (hl : a.toNat % bank + length ≤ bank) : ∃ block : Vector UInt8 length,
      block.toArray = .ofFn (fun i : Fin length => read (a + .ofNat i)) ∧
      HoldsReads read a block := by
  refine ⟨.ofFn fun i => read (a + .ofNat i), Vector.toArray_ofFn, fun i => ?_⟩
  have hi : a.toNat % bank + i < bank := by omega
  exact ⟨a + .ofNat i, toNat_add hb hi, Vector.getElem_ofFn i.isLt⟩

theorem BankRegisters.ramOffset?_eq_none_iff {h : Header} {r : BankRegisters} :
    r.ramOffset? h a = none ↔ h.kind ≠ .romOnly ∧ ¬r.ramEnabled := by
  simp only [ramOffset?]
  cases h.kind <;> simp

theorem not_showsRam_iff (c : Cartridge) (a : UInt16) :
    ¬c.ShowsRam ↔ c.header.ramBytes = 0 ∨ c.banks.ramOffset? c.header a = none := by
  rw [ShowsRam, BankRegisters.ramOffset?_eq_none_iff, not_and_or, not_or, not_not]

-- With a controller, RAM is shown once it is enabled.
theorem showsRam_writes (hb : c.banks = {}) (hk : c.header.kind ≠ .romOnly)
    (hr : c.header.ramBytes ≠ 0) (ws : List (UInt16 × UInt8)) :
    (c.writes ws).ShowsRam ↔ RamEnabledAfter c.header ws := by
  simp only [ShowsRam, writes_header, ramEnabled_writes hk hb, RamEnabledAfter]
  exact and_iff_right hr

-- Where no RAM is shown, a block is a piece of the open bus.
theorem ramBlock?_of_not_showsRam (h : ¬c.ShowsRam) :
    c.ramBlock? a length = Memory.openBusBlock? length := by
  simp only [ramBlock?]
  split
  case h_1 ho =>
    have hz := ((c.not_showsRam_iff a).mp h).resolve_right (by simp [ho])
    exact if_pos hz
  case h_2 => rfl

theorem ramBlock?_of_fits (hl : a.toNat % ramBankSize + length ≤ ramBankSize)
    (h : c.ShowsRam ∨ length ≤ Memory.openBusLimit) :
    c.ramBlock? a length = some (.ofFn fun i : Fin length => c.readRam (a + .ofNat i)) :=
  c.ramBlock?_eq_ofFn hl fun hn => h.resolve_left ((c.not_showsRam_iff a).mpr hn)

theorem le_romBankSize (hl : a.toNat % ramBankSize + length ≤ ramBankSize) :
    length ≤ romBankSize :=
  Nat.le_trans (Nat.le_trans (Nat.le_add_left ..) hl) (by decide)

-- A block that stays within a bank passes all checks and holds what the processor reads at its
-- addresses, in whatever state the registers are: a block of ROM always, and one of RAM exactly if
-- RAM is shown or the open bus is long enough.
theorem blocks_hold_reads (c : Cartridge) (a : UInt16) (length : Nat) :
    (a.toNat % romBankSize + length ≤ romBankSize → ∃ block : Vector UInt8 length,
      c.romBlock? a length = some block.toArray ∧
      c.checkedRomBlock a length = some block.toArray ∧ HoldsReads c.readRom a block) ∧
    (a.toNat % ramBankSize + length ≤ ramBankSize →
      (c.ShowsRam ∨ length ≤ 0x100 → ∃ block : Vector UInt8 length,
        c.ramBlock? a length = some block.toArray ∧
        c.checkedRamBlock a length = some block.toArray ∧ HoldsReads c.readRam a block) ∧
      (¬c.ShowsRam → 0x100 < length → c.checkedRamBlock a length = none)) := by
  refine ⟨fun hl => ?rom, fun hl => ⟨fun h => ?ram, fun hs h => ?long⟩⟩
  case rom =>
    have hr : length ≤ romBankSize := Nat.le_trans (Nat.le_add_left ..) hl
    have hb := c.romBlock?_eq_ofFn hl
    obtain ⟨block, ho, hh⟩ := exists_holdsReads c.readRom (by decide) hl
    rw [← ho] at hb
    exact ⟨block, hb, (c.checkedRomBlock_eq a hr).trans hb, hh⟩
  case ram =>
    have hb := ramBlock?_of_fits hl h
    obtain ⟨block, ho, hh⟩ := exists_holdsReads c.readRam (by decide) hl
    rw [← ho] at hb
    exact ⟨block, hb, (c.checkedRamBlock_eq a (le_romBankSize hl)).trans hb, hh⟩
  case long =>
    rw [c.checkedRamBlock_eq a (le_romBankSize hl), ramBlock?_of_not_showsRam hs]
    exact if_neg (Nat.not_le.mpr h)

-- The last bytes of the upper window, and all but the first page of the third bank of RAM. Once the
-- RAM is switched off, the open bus cannot answer for as many.
theorem blocks_hold_reads_batteryImage :
    ∃ fresh, ofImage batteryImage = .ok fresh ∧
      let c := fresh.writes [(0x0000, 0x0a), (0x6000, 1), (0x4000, 2)]
      let off := fresh.writes [(0x0000, 0x0a), (0x0000, 0)]
      (∃ block : Vector UInt8 0xa0, c.romBlock? 0x7f60 0xa0 = some block.toArray ∧
        c.checkedRomBlock 0x7f60 0xa0 = some block.toArray ∧ HoldsReads c.readRom 0x7f60 block) ∧
      c.ShowsRam ∧
      (∃ block : Vector UInt8 0x1f00, c.ramBlock? 0xa100 0x1f00 = some block.toArray ∧
        c.checkedRamBlock 0xa100 0x1f00 = some block.toArray ∧
        HoldsReads c.readRam 0xa100 block) ∧
      ¬off.ShowsRam ∧ off.checkedRamBlock 0xa100 0x1f00 = none := by
  obtain ⟨fresh, hf, hh⟩ := ofImage_batteryImage
  refine ⟨fresh, hf, ?_⟩
  intro c off
  have hb : fresh.banks = {} := by
    obtain ⟨header, fits, rfl⟩ := ofImage_eq hf
    rfl
  have hk : fresh.header.kind ≠ .romOnly := by rw [hh]; decide
  have hr : fresh.header.ramBytes ≠ 0 := by rw [hh, ramBytes_eq]; decide
  have hs := showsRam_writes hb hk hr
  have hc : c.ShowsRam := (hs _).mpr (.inr (by decide))
  have hoff : ¬off.ShowsRam := by
    rw [hs, RamEnabledAfter, hh]
    decide
  have hrom := (blocks_hold_reads c 0x7f60 0xa0).left (by decide)
  have hram := (blocks_hold_reads c 0xa100 0x1f00).right (by decide)
  have hopen := (blocks_hold_reads off 0xa100 0x1f00).right (by decide)
  exact ⟨hrom, hc, hram.left (.inl hc), hoff, hopen.right hoff (by decide)⟩

end DotMatrix.Cartridge
