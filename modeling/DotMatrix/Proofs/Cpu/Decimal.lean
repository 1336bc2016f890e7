import DotMatrix.Cpu.Flat
import DotMatrix.Proofs.Cpu.LongArithmetic
import Mathlib.Data.FinEnum

namespace DotMatrix

namespace Decimal

-- Both halves of the byte are decimal digits.
def Packed (b : UInt8) : Prop := b.toNat % 16 ≤ 9 ∧ b.toNat / 16 ≤ 9

instance (b : UInt8) : Decidable (Packed b) := inferInstanceAs (Decidable (_ ∧ _))

-- The number that the two digits make.
def value (b : UInt8) : Nat := b.toNat / 16 * 10 + b.toNat % 16

-- The number that the digits of some bytes make, the lowest first.
def ofBytes (bs : List UInt8) : Nat := Nat.ofDigits 100 (bs.map value)

-- The byte with the two lowest digits of a number.
def pack (n : Nat) : UInt8 := .ofNat (n / 10 % 10 * 16 + n % 10)

-- The bytes of the lowest digits of a number, the lowest first.
def bytes : Nat → Nat → List UInt8
  | 0, _         => []
  | width + 1, n => pack n :: bytes width (n / 100)

theorem value_lt {b : UInt8} (h : Packed b) : value b < 100 := by
  simp only [Packed, value] at *
  omega

theorem pack_value {b : UInt8} (h : Packed b) (n : Nat) : pack (value b + 100 * n) = b := by
  simp only [Packed, value] at *
  rw [← UInt8.toNat_inj, pack, UInt8.toNat_ofNat']
  omega

theorem bytes_ofBytes {bs : List UInt8} (h : ∀ b ∈ bs, Packed b) :
    bytes bs.length (ofBytes bs) = bs := by
  induction bs with
  | nil => rfl
  | cons b bs ih =>
    obtain ⟨hb, hs⟩ := List.forall_mem_cons.mp h
    have hv := value_lt hb
    have hd : (value b + 100 * ofBytes bs) / 100 = ofBytes bs := by omega
    have ho : ofBytes (b :: bs) = value b + 100 * ofBytes bs := Nat.ofDigits_cons ..
    rw [List.length_cons, bytes, ho, pack_value hb, hd, ih hs]

theorem ofBytes_map {α : Type} (f : α → UInt8) (ds : List α) :
    ofBytes (ds.map f) = Nat.ofDigits 100 (ds.map fun d => value (f d)) := by
  rw [ofBytes, List.map_map]
  rfl

section Lists

variable {α : Type} {f : α → UInt8} {ds : List α}

theorem map_eq_bytes {n : Nat} (hp : ∀ d ∈ ds, Packed (f d)) (h : ofBytes (ds.map f) = n) :
    ds.map f = bytes ds.length n := by
  rw [← h, ← ds.length_map f, bytes_ofBytes (List.forall_mem_map.mpr hp)]

theorem ofBytes_map_lt (hp : ∀ d ∈ ds, Packed (f d)) : ofBytes (ds.map f) < 100 ^ ds.length := by
  rw [ofBytes_map, ← ds.length_map fun d => value (f d)]
  exact Nat.ofDigits_lt_base_pow_length (by decide)
    (List.forall_mem_map.mpr fun d hd => value_lt (hp d hd))

end Lists

end Decimal

namespace Arithmetic

open Decimal

variable {a b : UInt8} {carry : Bool} {r : UInt8 × Flags}

-- Both corrections are made to a sum wherever a digit, or what there is of one, is not decimal.
theorem decimalAdjust_sum (v : UInt8) (zero half carry : Bool) :
    let r := decimalAdjust v { zero, sub := false, half, carry }
    r.1.toNat = (v.toNat + (if carry ∨ 0x99 < v.toNat then 0x60 else 0) +
      if half ∨ 9 < v.toNat % 16 then 6 else 0) % 256 ∧
    r.2.carry = decide (carry ∨ 0x99 < v.toNat) := by
  revert v zero half carry
  decide +kernel

theorem decimalAdjust_difference (v : UInt8) (zero half carry : Bool) :
    let r := decimalAdjust v { zero, sub := true, half, carry }
    r.1.toNat = (0x100 + v.toNat - (if carry then 0x60 else 0) - if half then 6 else 0) % 256 ∧
      r.2.carry = carry := by
  revert v zero half carry
  decide +kernel

-- Two sums of digits, which come to `v` and a carry in base 16, corrected to base 10.
theorem corrected_sum {low high v w : Nat} {out : Bool} (hl : low ≤ 19) (hh : high ≤ 18)
    (hv : v < 256) (hs : low + 16 * high = v + 256 * out.toNat)
    (hw : w = (v + (if 99 < low + 10 * high then 0x60 else 0) + if 9 < low then 6 else 0) % 256) :
    (w % 16 ≤ 9 ∧ w / 16 ≤ 9) ∧
      low + 10 * high = w / 16 * 10 + w % 16 + if 99 < low + 10 * high then 100 else 0 := by
  split_ifs at hw ⊢ <;> omega

theorem IsSum.decimal (h : IsSum a b carry r) (ha : Packed a) (hb : Packed b) :
    Packed (decimalAdjust r.1 r.2).1 ∧
      Adds 100 (value a) (value b) carry (value (decimalAdjust r.1 r.2).1)
        (decimalAdjust r.1 r.2).2.carry := by
  obtain ⟨v, zero, sub, half, out⟩ := r
  obtain rfl : sub = false := h.sub
  obtain ⟨hr, ho⟩ := decimalAdjust_sum v zero half out
  have hn : a.toNat % 16 + b.toNat % 16 + carry.toNat = v.toNat % 16 + 16 * half.toNat := h.nibble
  have hd : a.toNat + b.toNat + carry.toNat = v.toNat + 256 * out.toNat := h.byte
  have hc := carry.toNat_le
  have hv := v.toNat_lt
  simp only [Packed] at ha hb
  -- The byte is corrected wherever the sum of the decimal digits has a carry.
  let low := a.toNat % 16 + b.toNat % 16 + carry.toNat
  let high := a.toNat / 16 + b.toNat / 16
  have hl : (half = true ∨ 9 < v.toNat % 16) ↔ 9 < low := by
    cases half <;> simp [low] at hn ⊢ <;> omega
  have hh : (out = true ∨ 0x99 < v.toNat) ↔ 99 < low + 10 * high := by
    cases out <;> simp [low, high] at hd ⊢ <;> omega
  have hs : low + 16 * high = v.toNat + 256 * out.toNat := by omega
  simp only [hl, hh] at hr ho
  obtain ⟨hp, ht⟩ := corrected_sum (by omega) (by omega) hv hs hr
  refine ⟨hp, ?_⟩
  rw [ho]
  refine .of_ite ?_
  simp only [value]
  omega

theorem IsDifference.decimal (h : IsDifference a b carry r) (ha : Packed a) (hb : Packed b) :
    Packed (decimalAdjust r.1 r.2).1 ∧
      Adds 100 (value (decimalAdjust r.1 r.2).1) (value b) carry (value a)
        (decimalAdjust r.1 r.2).2.carry := by
  obtain ⟨v, zero, sub, half, out⟩ := r
  obtain rfl : sub = true := h.sub
  obtain ⟨hr, ho⟩ := decimalAdjust_difference v zero half out
  have hn : v.toNat % 16 + b.toNat % 16 + carry.toNat = a.toNat % 16 + 16 * half.toNat := h.nibble
  have hd : v.toNat + b.toNat + carry.toNat = a.toNat + 256 * out.toNat := h.byte
  have hc := carry.toNat_le
  have hv := v.toNat_lt
  simp only [Packed, Adds, value] at *
  rw [ho, hr]
  cases half <;> cases out <;> simp at hn hd ⊢ <;> omega

end Arithmetic

open Decimal

-- An operation on the accumulator and the correction of what it leaves: the state in which the
-- correction's opcode has been fetched.
structure Adjusted (β : Type) [Bus β] extends Operation β where
  adjust   : Core β
  a_eq     : adjust.cpu.a = toOperation.result
  flags_eq : adjust.cpu.flags = toOperation.flags

namespace Adjusted

variable {β : Type} [Bus β] (u : Adjusted β)

def corrected : Core β := u.adjust.execute .daa

def digits : UInt8 := u.corrected.cpu.a

def carry : Bool := u.corrected.cpu.flags.carry

-- The correction comes right after the operation.
def ofOperation (u : Operation β) : Adjusted β where
  toOperation := u
  adjust      := u.after
  a_eq        := rfl
  flags_eq    := rfl

theorem corrected_eq :
    (u.digits, u.corrected.cpu.flags) =
      Arithmetic.decimalAdjust u.toOperation.outcome.1 u.toOperation.outcome.2 := by
  change Arithmetic.decimalAdjust u.adjust.cpu.a u.adjust.cpu.flags = _
  rw [u.a_eq, u.flags_eq]
  rfl

variable {u}

theorem sum (ho : u.op = .add ∨ u.op = .adc) (ha : Packed u.accumulator) (hb : Packed u.operand) :
    Packed u.digits ∧
      Adds 100 (value u.accumulator) (value u.operand) u.carryIn (value u.digits) u.carry := by
  have h := (Operation.isSum ho).decimal ha hb
  rwa [← u.corrected_eq] at h

theorem difference (ho : u.op = .sub ∨ u.op = .sbc) (ha : Packed u.accumulator)
    (hb : Packed u.operand) :
    Packed u.digits ∧
      Adds 100 (value u.digits) (value u.operand) u.carryIn (value u.accumulator) u.carry := by
  have h := (Operation.isDifference ho).decimal ha hb
  rwa [← u.corrected_eq] at h

-- Decimal addition and subtraction of numbers of any length, and the flags after every correction.
theorem decimal_arithmetic :
    (∀ us : List (Adjusted β), ∀ h : Operation.Chain .add .adc toOperation carry us,
      (∀ u ∈ us, Packed u.accumulator ∧ Packed u.operand) →
      let x := ofBytes (us.map (·.accumulator))
      let y := ofBytes (us.map (·.operand))
      us.map digits = bytes us.length ((x + y) % 100 ^ us.length) ∧
        ((us.getLast h.ne_nil).carry = true ↔ 100 ^ us.length ≤ x + y)) ∧
    (∀ us : List (Adjusted β), ∀ h : Operation.Chain .sub .sbc toOperation carry us,
      (∀ u ∈ us, Packed u.accumulator ∧ Packed u.operand) →
      let x := ofBytes (us.map (·.accumulator))
      let y := ofBytes (us.map (·.operand))
      us.map digits = bytes us.length (((x : Int) - y) % (100 ^ us.length : Nat)).toNat ∧
        ((us.getLast h.ne_nil).carry = true ↔ x < y)) ∧
    ∀ s : Core β,
      let t := s.execute .daa
      t.cpu.flags.half = false ∧ t.cpu.flags.sub = s.cpu.flags.sub ∧
        t.cpu.flags.zero = (t.cpu.a == 0) := by
  refine ⟨fun us h hp => ?sum, fun us h hp => ?difference, fun s => ⟨rfl, rfl, rfl⟩⟩
  case sum =>
    have hd := fun u hm => sum (h.ops.mem u hm) (hp u hm).1 (hp u hm).2
    have ha := h.adds rfl rfl fun u hm => (hd u hm).2
    simp only [← ofBytes_map] at ha
    obtain ⟨hs, hc⟩ := ha.eq_mod (ofBytes_map_lt fun u hm => (hd u hm).1)
    exact ⟨map_eq_bytes (fun u hm => (hd u hm).1) hs, hc⟩
  case difference =>
    have hd := fun u hm => difference (h.ops.mem u hm) (hp u hm).1 (hp u hm).2
    have ha := h.adds rfl rfl fun u hm => (hd u hm).2
    simp only [← ofBytes_map] at ha
    obtain ⟨hs, hc⟩ := ha.eq_sub_mod (ofBytes_map_lt fun u hm => (hd u hm).1)
    exact ⟨map_eq_bytes (fun u hm => (hd u hm).1) hs, hc⟩

-- 9058 and 967 are added, and 1 is taken away from 1000.
theorem decimal_arithmetic_two_bytes :
    let s : Core Flat := { cpu := .postBoot, bus := {} }
    let us := Operation.program ofOperation corrected .add .adc s [(0x58, 0x67), (0x90, 0x09)]
    let vs := Operation.program ofOperation corrected .sub .sbc s [(0x00, 0x01), (0x10, 0x00)]
    (Operation.Chain .add .adc toOperation carry us ∧
      (∀ u ∈ us, Packed u.accumulator ∧ Packed u.operand) ∧ us.map digits = [0x25, 0x00]) ∧
    (Operation.Chain .sub .sbc toOperation carry vs ∧
      (∀ v ∈ vs, Packed v.accumulator ∧ Packed v.operand) ∧ vs.map digits = [0x99, 0x09]) := by
  intro s us vs
  have hu : Operation.Chain .add .adc toOperation carry us :=
    Operation.program_chain (fun _ => rfl) (fun _ => rfl) _ _ s _ _
  have hv : Operation.Chain .sub .sbc toOperation carry vs :=
    Operation.program_chain (fun _ => rfl) (fun _ => rfl) _ _ s _ _
  have pu : ∀ u ∈ us, Packed u.accumulator ∧ Packed u.operand := by decide +kernel
  have pv : ∀ v ∈ vs, Packed v.accumulator ∧ Packed v.operand := by decide +kernel
  have sum := decimal_arithmetic.1 us hu pu
  have difference := decimal_arithmetic.2.1 vs hv pv
  exact ⟨⟨hu, pu, sum.1.trans (by decide +kernel)⟩, hv, pv, difference.1.trans (by decide +kernel)⟩

end Adjusted
end DotMatrix
