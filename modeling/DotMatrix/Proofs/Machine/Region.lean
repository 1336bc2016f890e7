import Mathlib.Data.FinEnum
import Mathlib.Tactic.SplitIfs
import DotMatrix.Machine.Region
import DotMatrix.Proofs.Sound.Registers

namespace DotMatrix

-- The low byte of the register's address.
def Video.Register.low : Video.Register → UInt8
  | lcdc => 0x40
  | stat => 0x41
  | scy  => 0x42
  | scx  => 0x43
  | ly   => 0x44
  | lyc  => 0x45
  | bgp  => 0x47
  | obp0 => 0x48
  | obp1 => 0x49
  | wy   => 0x4a
  | wx   => 0x4b

theorem lowByte_toNat (a : UInt16) : (lowByte a).toNat = a.toNat % 0x100 := UInt16.toNat_toUInt8 a

namespace Region

variable {a : UInt16}

theorem ofAddress_rom (h : a.toNat < 0x8000) : ofAddress a = rom := if_pos h

theorem ofAddress_vram (hl : 0x8000 ≤ a.toNat) (hh : a.toNat < 0xa000) : ofAddress a = vram := by
  simp only [ofAddress]
  split_ifs <;> first | rfl | omega

theorem ofAddress_cartridgeRam (hl : 0xa000 ≤ a.toNat) (hh : a.toNat < 0xc000) :
    ofAddress a = cartridgeRam := by
  simp only [ofAddress]
  split_ifs <;> first | rfl | omega

theorem ofAddress_workRam (hl : 0xc000 ≤ a.toNat) (hh : a.toNat < 0xfe00) :
    ofAddress a = workRam := by
  simp only [ofAddress]
  split_ifs <;> first | rfl | omega

theorem ofAddress_oam (hl : 0xfe00 ≤ a.toNat) (hh : a.toNat < 0xfea0) :
    ofAddress a = oam ⟨a.toNat - 0xfe00, by omega⟩ := by
  simp only [ofAddress]
  split_ifs <;> first | rfl | omega

theorem ofAddress_unusable (hl : 0xfea0 ≤ a.toNat) (hh : a.toNat < 0xff00) :
    ofAddress a = unusable := by
  simp only [ofAddress]
  split_ifs <;> first | rfl | omega

theorem ofAddress_device (hl : 0xff00 ≤ a.toNat) (hh : a.toNat < 0xff80) :
    ofAddress a = ofDevice (lowByte a) := by
  simp only [ofAddress]
  split_ifs <;> first | rfl | omega

theorem ofAddress_highRam (hl : 0xff80 ≤ a.toNat) (hh : a.toNat < 0xffff) :
    ofAddress a = highRam ⟨a.toNat - 0xff80, by omega⟩ := by
  simp only [ofAddress]
  split_ifs <;> first | rfl | omega

-- The registers of the sound unit, and those of the picture unit but for that of the copy.
theorem ofAddress_sound (hl : 0xff10 ≤ a.toNat) (hh : a.toNat ≤ 0xff3f) :
    ofAddress a = (Sound.Register.ofLow? (lowByte a)).elim unmapped sound := by
  have hs : ∀ low : UInt8, 0x10 ≤ low.toNat → low.toNat ≤ 0x3f →
      ofDevice low = (Sound.Register.ofLow? low).elim unmapped sound := by decide +kernel
  have hb := lowByte_toNat a
  rw [ofAddress_device (by omega) (by omega)]
  exact hs (lowByte a) (by omega) (by omega)

theorem ofAddress_video (hl : 0xff40 ≤ a.toNat) (hh : a.toNat ≤ 0xff4b) (hn : a ≠ 0xff46) :
    ofAddress a = (Video.Register.ofLow? (lowByte a)).elim unmapped video := by
  have hs : ∀ low : UInt8, 0x40 ≤ low.toNat → low.toNat ≤ 0x4b → low.toNat ≠ 0x46 →
      ofDevice low = (Video.Register.ofLow? low).elim unmapped video := by decide +kernel
  have hb := lowByte_toNat a
  have hn : a.toNat ≠ 0xff46 := fun h => hn (UInt16.toNat_inj.mp h)
  rw [ofAddress_device (by omega) (by omega)]
  exact hs (lowByte a) (by omega) (by omega) (by omega)

-- Among the devices there are gaps.
def InGap (a : UInt16) : Prop :=
  0xff01 ≤ a.toNat ∧ a.toNat ≤ 0xff03 ∨ 0xff08 ≤ a.toNat ∧ a.toNat ≤ 0xff0e ∨ a = 0xff15 ∨
    a = 0xff1f ∨ 0xff27 ≤ a.toNat ∧ a.toNat ≤ 0xff2f ∨ 0xff4c ≤ a.toNat ∧ a.toNat ≤ 0xff7f

theorem ofAddress_gap (h : InGap a) : ofAddress a = unmapped := by
  have hs : ∀ low : UInt8,
      0x01 ≤ low.toNat ∧ low.toNat ≤ 0x03 ∨ 0x08 ≤ low.toNat ∧ low.toNat ≤ 0x0e ∨
        low.toNat = 0x15 ∨ low.toNat = 0x1f ∨ 0x27 ≤ low.toNat ∧ low.toNat ≤ 0x2f ∨
        0x4c ≤ low.toNat ∧ low.toNat ≤ 0x7f → ofDevice low = unmapped := by decide +kernel
  have hb := lowByte_toNat a
  simp only [InGap, ← UInt16.toNat_inj, UInt16.reduceToNat] at h
  rw [ofAddress_device (by omega) (by omega)]
  exact hs (lowByte a) (by omega)

-- The low byte of the only address at which a device answers.
def low? : Region → Option UInt8
  | joypad         => some 0x00
  | div            => some 0x04
  | tima           => some 0x05
  | tma            => some 0x06
  | tac            => some 0x07
  | interruptFlags => some 0x0f
  | sound r        => some r.low
  | video r        => some r.low
  | dma            => some 0x46
  | _              => none

theorem low?_ofDevice (low : UInt8) : ofDevice low = unmapped ∨ (ofDevice low).low? = some low := by
  revert low
  decide +kernel

-- The addresses at which a region may answer.
def Spans (a : UInt16) : Region → Prop
  | rom             => a.toNat < 0x8000
  | vram            => 0x8000 ≤ a.toNat ∧ a.toNat < 0xa000
  | cartridgeRam    => 0xa000 ≤ a.toNat ∧ a.toNat < 0xc000
  | workRam         => 0xc000 ≤ a.toNat ∧ a.toNat < 0xfe00
  | oam i           => a.toNat = 0xfe00 + i
  | unusable        => 0xfea0 ≤ a.toNat ∧ a.toNat < 0xff00
  | highRam i       => a.toNat = 0xff80 + i
  | interruptEnable => a.toNat = 0xffff
  | _               => 0xff00 ≤ a.toNat ∧ a.toNat < 0xff80

theorem spans_of_device {r : Region} {low : UInt8} (h : r = unmapped ∨ r.low? = some low)
    (hl : 0xff00 ≤ a.toNat) (hh : a.toNat < 0xff80) : r.Spans a := by
  cases r <;> first | exact ⟨hl, hh⟩ | simp [low?] at h

theorem spans_ofAddress (a : UInt16) : (ofAddress a).Spans a := by
  by_cases h : 0xff00 ≤ a.toNat ∧ a.toNat < 0xff80
  case pos =>
    rw [ofAddress_device h.left h.right]
    exact spans_of_device (low?_ofDevice _) h.left h.right
  case neg =>
    have ha := a.toNat_lt
    simp only [ofAddress]
    split_ifs
    all_goals simp only [Spans]; omega

variable {r : Region}

theorem spans_of (h : ofAddress a = r) : r.Spans a := h ▸ spans_ofAddress a

theorem toNat_of_ofAddress {low : UInt8} (h : ofAddress a = r) (hl : r.low? = some low) :
    a.toNat = 0xff00 + low.toNat := by
  have hs : 0xff00 ≤ a.toNat ∧ a.toNat < 0xff80 := by
    have hs := spans_of h
    cases r <;> first | exact hs | cases hl
  have hb := lowByte_toNat a
  rw [ofAddress_device hs.left hs.right] at h
  have hd := low?_ofDevice (lowByte a)
  rw [h, hl, Option.some.injEq] at hd
  obtain hu | hd := hd
  · rw [hu] at hl
    cases hl
  · rw [hd]
    omega

theorem eq_of_ofAddress {n : UInt16} (h : ofAddress a = r) {low : UInt8} (hl : r.low? = some low)
    (hn : 0xff00 + low.toNat = n.toNat) : a = n :=
  UInt16.toNat_inj.mp ((toNat_of_ofAddress h hl).trans hn)

end Region
end DotMatrix
