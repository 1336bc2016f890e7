import DotMatrix.Proofs.Cpu.Code
import DotMatrix.Proofs.Cpu.WordArithmetic

namespace DotMatrix

theorem toNat_signExtend (b : UInt8) :
    (signExtend b).toNat = b.toNat + if 0x80 ≤ b then 0xff00 else 0 := by
  revert b
  decide +kernel

theorem toInt_toInt8 (b : UInt8) : b.toInt8.toInt = b.toNat - if 0x80 ≤ b then 0x100 else 0 := by
  revert b
  decide +kernel

-- The least of the signed bytes is its own opposite.
theorem signExtend_add_neg_eq_zero_iff (b : UInt8) :
    signExtend b + signExtend (-b) = 0 ↔ b ≠ 0x80 := by
  revert b
  decide +kernel

namespace Arithmetic

-- A word and a signed byte make up a word. In the low byte that is a sum without a sign, with the
-- carries that the flags tell; a byte below zero then takes one from the high byte.
structure IsOffset (w : UInt16) (b : UInt8) (r : UInt16 × Flags) : Prop where
  value  : (r.1.toNat : Int) = (w.toNat + b.toInt8.toInt) % 0x10000
  byte   : Adds 256 (lowByte w).toNat b.toNat false (lowByte r.1).toNat r.2.carry
  nibble : Adds 16 ((lowByte w).toNat % 16) (b.toNat % 16) false
    ((lowByte r.1).toNat % 16) r.2.half
  high   : ((highByte r.1).toNat : Int) =
    ((highByte w).toNat + r.2.carry.toNat - if 0x80 ≤ b then 1 else 0) % 0x100
  zero   : r.2.zero = false
  sub    : r.2.sub = false

theorem toNat_addOffset (w : UInt16) (b : UInt8) :
    (addOffset w b).1.toNat = (w.toNat + b.toNat + if 0x80 ≤ b then 0xff00 else 0) % 0x10000 := by
  change (w + signExtend b).toNat = _
  rw [UInt16.toNat_add, toNat_signExtend, Nat.add_assoc]

theorem lowByte_addOffset (w : UInt16) (b : UInt8) :
    lowByte (addOffset w b).1 = (addWithCarry (lowByte w) b false).1 := by
  have hv := toNat_addOffset w b
  have hs := (addWithCarry_isSum (lowByte w) b false).byte
  have hw := lowByte_add_highByte w
  have hr := lowByte_add_highByte (addOffset w b).1
  have hl := (lowByte (addOffset w b).1).toNat_lt
  have hc := (addWithCarry (lowByte w) b false).1.toNat_lt
  rw [Adds, Bool.toNat_false, Nat.add_zero] at hs
  rw [← UInt8.toNat_inj]
  split at hv <;> omega

theorem addOffset_isOffset (w : UInt16) (b : UInt8) : IsOffset w b (addOffset w b) := by
  have hs := addWithCarry_isSum (lowByte w) b false
  have hl := lowByte_addOffset w b
  have ha : Adds 256 (lowByte w).toNat b.toNat false (lowByte (addOffset w b).1).toNat
      (addOffset w b).2.carry := hl ▸ hs.byte
  have hv := toNat_addOffset w b
  refine ⟨?value, ha, hl ▸ hs.nibble, ?high, rfl, rfl⟩
  case value =>
    have hb := b.toNat_lt
    rw [hv, toInt_toInt8]
    split <;> omega
  case high =>
    have hw := lowByte_add_highByte w
    have hr := lowByte_add_highByte (addOffset w b).1
    have hh := (highByte (addOffset w b).1).toNat_lt
    rw [Adds, Bool.toNat_false, Nat.add_zero] at ha
    split at hv
    case isTrue h =>
      rw [if_pos h]
      omega
    case isFalse h =>
      rw [if_neg h]
      omega

end Arithmetic

namespace Core

variable {β : Type} [Bus β]

theorem sp_offsetToSp (s : Core β) :
    (s.execute .offsetToSp).cpu.sp = s.cpu.sp + signExtend s.fetch.1 :=
  rfl

-- The same word goes to SP or to HL, with the same flags, and nothing else changes. The opposite
-- byte takes SP back, if there is one.
theorem stack_offset (s : Core β) :
    let offset := s.fetch.1
    (Instruction.decode 0xe8 = some .offsetToSp ∧ Instruction.decode 0xf8 = some .offsetToHl) ∧
    (∃ r, Arithmetic.IsOffset s.cpu.sp offset r ∧
      s.execute .offsetToSp =
        s.fetch.2.mapCpu (fun cpu => { cpu with sp := r.1, flags := r.2 }) ∧
      s.execute .offsetToHl =
        s.fetch.2.mapCpu (fun cpu =>
          { cpu with h := highByte r.1, l := lowByte r.1, flags := r.2 }) ∧
      (s.execute .offsetToHl).cpu.hl = r.1) ∧
    ∀ t : Core β, t.cpu.sp = (s.execute .offsetToSp).cpu.sp → t.fetch.1 = -offset →
      ((t.execute .offsetToSp).cpu.sp = s.cpu.sp ↔ offset ≠ 0x80) := by
  intro offset
  refine ⟨⟨by decide, by decide⟩,
    ⟨Arithmetic.addOffset s.cpu.sp offset, Arithmetic.addOffset_isOffset .., rfl, rfl, ?hl⟩,
    fun t hs ht => ?back⟩
  case hl => exact word_bytes _
  case back =>
    rw [sp_offsetToSp, hs, ht, sp_offsetToSp, UInt16.add_assoc, UInt16.add_eq_left]
    exact signExtend_add_neg_eq_zero_iff offset

-- Eight is added to a stack pointer of 0xfff8, and then minus eight.
theorem stack_offset_wraps :
    let start : Core Flat := {
      cpu := { Cpu.postBoot with sp := 0xfff8 }
      bus := Flat.load {} 0x0100 [0xe8, 0x08, 0xe8, 0xf8] }
    let s := start.fetch.2
    let t := (s.execute .offsetToSp).fetch.2
    (t.cpu.sp = (s.execute .offsetToSp).cpu.sp ∧ t.fetch.1 = -s.fetch.1) ∧
    t.cpu.sp = 0 ∧ (t.execute .offsetToSp).cpu.sp = 0xfff8 := by
  intro start s t
  have hc : start.bus.Contains start.cpu.pc [0xe8, 0x08, 0xe8, 0xf8] :=
    Flat.contains_load _ _ (by simp)
  have hsp : start.cpu.sp = 0xfff8 := rfl
  clear_value start
  obtain ⟨-, hs, -, hn, -⟩ := hc
  replace hs : s.fetch.1 = 0x08 := hs
  have ht : t.fetch.1 = -s.fetch.1 := hn.trans (hs ▸ rfl)
  have h := (stack_offset s).2.2 t rfl ht
  refine ⟨⟨rfl, ht⟩, ?_, (h.mpr ?_).trans hsp⟩
  · have h0 : t.cpu.sp = start.cpu.sp + signExtend s.fetch.1 := rfl
    rw [h0, hs, hsp]
    decide
  · rw [hs]
    decide

end Core
end DotMatrix
