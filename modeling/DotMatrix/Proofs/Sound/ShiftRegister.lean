import Mathlib.Algebra.Ring.Nat
import Mathlib.Data.List.Induction
import DotMatrix.Sound.Noise

namespace DotMatrix.Sound

namespace Lfsr

def bit (r : Lfsr) (i : Nat) : Bool := r.bits.toNat.testBit i

-- What is fed back.
def tap (r : Lfsr) : Bool := r.bit 0 ^^ r.bit 1

-- One of the seven low bits is set.
def LowSet (r : Lfsr) : Prop := ∃ i < 7, r.bit i

instance (r : Lfsr) : Decidable r.LowSet := inferInstanceAs (Decidable (∃ i < 7, _))

-- One shift after the other, each of them in the short mode or not.
def walk (r : Lfsr) (modes : List Bool) : Lfsr := modes.foldl (fun r short => r.shift short) r

variable {r : Lfsr} {short : Bool} {modes : List Bool} {i : Nat}

theorem le_iff : r.bits ≤ 0x7fff ↔ r.bits.toNat < 2 ^ 15 := by
  rw [UInt16.le_iff_toNat_le]
  exact Nat.lt_succ_iff.symm

theorem bit_of_le (h : r.bits ≤ 0x7fff) (hi : 15 ≤ i) : r.bit i = false :=
  Nat.testBit_lt_two_pow
    (Nat.lt_of_lt_of_le (le_iff.mp h) (Nat.pow_le_pow_right (by decide) hi))

theorem eq_of_bits {b : UInt16} (h : ∀ i, r.bit i = b.toNat.testBit i) : r.bits = b :=
  UInt16.toNat_inj.mp (Nat.eq_of_testBit_eq h)

theorem tap_eq (r : Lfsr) : (r.bits ^^^ (r.bits >>> 1)) &&& 1 = if r.tap then 1 else 0 := by
  have hx : (r.bits.toNat ^^^ r.bits.toNat >>> 1).testBit 0 = r.tap := by
    rw [Nat.testBit_xor, Nat.testBit_shiftRight]
    rfl
  have ht : ((r.bits ^^^ (r.bits >>> 1)) &&& 1).toNat = r.tap.toNat := by
    rw [← hx, Nat.toNat_testBit, UInt16.toNat_and]
    simp
  rw [← UInt16.toNat_inj, ht]
  cases r.tap <;> rfl

theorem bits_shift_long (r : Lfsr) :
    (r.shift false).bits = (r.bits >>> 1) ||| if r.tap then 0x4000 else 0 := by
  simp only [shift, tap_eq]
  cases r.tap <;> rfl

theorem bits_shift_short (r : Lfsr) :
    (r.shift true).bits = ((r.shift false).bits &&& 0xffbf) ||| if r.tap then 0x40 else 0 := by
  simp only [shift, tap_eq]
  cases r.tap <;> rfl

theorem shift_le (h : r.bits ≤ 0x7fff) (short : Bool) : (r.shift short).bits ≤ 0x7fff := by
  have hs : (r.bits >>> 1).toNat < 2 ^ 15 := by
    rw [UInt16.toNat_shiftRight]
    exact Nat.lt_of_le_of_lt (Nat.shiftRight_le ..) (le_iff.mp h)
  have ht : (if r.tap then 0x4000 else 0 : UInt16).toNat < 2 ^ 15 := by cases r.tap <;> decide
  have ht' : (if r.tap then 0x40 else 0 : UInt16).toNat < 2 ^ 15 := by cases r.tap <;> decide
  have hl : (r.shift false).bits.toNat < 2 ^ 15 := by
    rw [bits_shift_long, UInt16.toNat_or]
    exact Nat.or_lt_two_pow hs ht
  rw [le_iff]
  cases short
  case false => exact hl
  case true  =>
    rw [bits_shift_short, UInt16.toNat_or, UInt16.toNat_and]
    exact Nat.or_lt_two_pow (Nat.lt_of_le_of_lt Nat.and_le_left hl) ht'

theorem walk_le (h : r.bits ≤ 0x7fff) (modes : List Bool) : (r.walk modes).bits ≤ 0x7fff := by
  induction modes generalizing r with
  | nil => exact h
  | cons short modes ih => exact ih (shift_le h short)

theorem testBit_ite {b : UInt16} {k : Nat} (hb : b.toNat = 2 ^ k) (t : Bool) (i : Nat) :
    (if t then b else 0).toNat.testBit i = (t && decide (k = i)) := by
  cases t
  case false => exact Nat.zero_testBit i
  case true  =>
    rw [if_pos rfl, hb]
    exact Nat.testBit_two_pow

-- A shift moves all bits down by one, and the tap comes in at the top.
theorem bit_shift_long (h : r.bits ≤ 0x7fff) (i : Nat) :
    (r.shift false).bit i = if i = 14 then r.tap else r.bit (i + 1) := by
  have hs : (r.bits >>> 1).toNat.testBit i = r.bit (i + 1) := by
    rw [UInt16.toNat_shiftRight, bit, Nat.add_comm i]
    exact Nat.testBit_shiftRight ..
  have ht : (if r.tap then 0x4000 else 0 : UInt16).toNat.testBit i = (r.tap && decide (14 = i)) :=
    testBit_ite rfl r.tap i
  rw [bit, bits_shift_long, UInt16.toNat_or, Nat.testBit_or, hs, ht]
  split
  case isTrue hi =>
    subst hi
    simp [bit_of_le h (Nat.le_refl 15)]
  case isFalse hi => simp [Ne.symm hi]

-- In the short mode the tap also takes the place of what has come to bit 6.
theorem bit_shift_short (h : r.bits ≤ 0x7fff) (i : Nat) :
    (r.shift true).bit i = if i = 6 then r.tap else (r.shift false).bit i := by
  have ht : (if r.tap then 0x40 else 0 : UInt16).toNat.testBit i = (r.tap && decide (6 = i)) :=
    testBit_ite rfl r.tap i
  have hm : ((r.shift false).bits &&& 0xffbf).toNat.testBit i =
      ((r.shift false).bit i && decide (i ≠ 6)) := by
    rw [UInt16.toNat_and, Nat.testBit_and, ← bit]
    by_cases hi : i < 15
    case pos =>
      have hk : ∀ i < 15, (0xffbf : UInt16).toNat.testBit i = decide (i ≠ 6) := by decide
      rw [hk i hi]
    case neg =>
      rw [bit_of_le (shift_le h false) (Nat.le_of_not_lt hi), Bool.false_and, Bool.false_and]
  rw [bit, bits_shift_short, UInt16.toNat_or, Nat.testBit_or, hm, ht]
  split
  case isTrue hi  => simp [hi]
  case isFalse hi => simp [hi, Ne.symm hi]

theorem bit_shift_top (h : r.bits ≤ 0x7fff) (short : Bool) : (r.shift short).bit 14 = r.tap := by
  have hl : (r.shift false).bit 14 = r.tap := bit_shift_long h 14
  cases short
  case false => exact hl
  case true  => exact (bit_shift_short h 14).trans hl

theorem bit_shift_of_ne (h : r.bits ≤ 0x7fff) (ht : i ≠ 14) (hs : short → i ≠ 6) :
    (r.shift short).bit i = r.bit (i + 1) := by
  have hl : (r.shift false).bit i = r.bit (i + 1) := (bit_shift_long h i).trans (if_neg ht)
  cases short
  case false => exact hl
  case true  => exact (bit_shift_short h i).trans ((if_neg (hs rfl)).trans hl)

theorem bit_zero_of_tap (ht : r.tap = false) (h : r.bit 1 = false) : r.bit 0 = false := by
  simpa [tap, h] using ht

-- The bit that is lost is bit 7, before it comes to bit 6.
theorem shift_eq_zero_iff (h : r.bits ≤ 0x7fff) :
    (r.shift short).bits = 0 ↔ r.bits = 0 ∨ short ∧ r.bits = 0x80 := by
  constructor
  case mpr =>
    obtain ⟨b⟩ := r
    rintro (rfl | ⟨rfl, rfl⟩)
    · cases short <;> rfl
    · rfl
  case mp =>
    intro hz
    have hb (i : Nat) : (r.shift short).bit i = false := by
      rw [bit, hz]
      exact Nat.zero_testBit i
    have h1 : r.bit 1 = false :=
      (bit_shift_of_ne h (by decide) (fun _ => by decide)).symm.trans (hb 0)
    have hr (i : Nat) (hi : short → i ≠ 7) : r.bit i = false := by
      obtain _ | i := i
      case zero => exact bit_zero_of_tap ((bit_shift_top h short).symm.trans (hb 14)) h1
      case succ =>
        by_cases ht : i = 14
        case pos => exact bit_of_le h (by omega)
        case neg =>
          have hs : short → i ≠ 6 := fun hs hi' => hi hs (by omega)
          exact (bit_shift_of_ne h ht hs).symm.trans (hb i)
    by_cases h7 : r.bit 7
    case pos =>
      have hs : short := by
        by_contra hs
        exact Bool.false_ne_true ((hr 7 fun hs' => absurd hs' hs).symm.trans h7)
      refine .inr ⟨hs, eq_of_bits fun i => ?_⟩
      have h80 : (0x80 : UInt16).toNat.testBit i = decide (7 = i) := Nat.testBit_two_pow (n := 7)
      rw [h80]
      by_cases hi : 7 = i
      case pos => rw [← hi, h7]; rfl
      case neg => rw [hr i fun _ => Ne.symm hi, decide_eq_false hi]
    case neg =>
      refine .inl (eq_of_bits fun i => ?_)
      have hi : r.bit i = false := by
        by_cases hi : i = 7
        case pos => rw [hi, Bool.eq_false_iff.mpr h7]
        case neg => exact hr i fun _ => hi
      exact hi.trans (Nat.zero_testBit i).symm

theorem LowSet.ne_zero (h : r.LowSet) : r.bits ≠ 0 := by
  obtain ⟨i, -, hi⟩ := h
  intro hz
  rw [bit, hz] at hi
  exact Bool.false_ne_true ((Nat.zero_testBit i).symm.trans hi)

-- In the short mode the seven low bits are a shift register of their own.
theorem LowSet.shift (h : r.bits ≤ 0x7fff) (hl : r.LowSet) : (r.shift true).LowSet := by
  by_contra hn
  have hb (i : Nat) (hi : i < 7) : (r.shift true).bit i = false :=
    Bool.eq_false_iff.mpr fun hs => hn ⟨i, hi, hs⟩
  have hr (i : Nat) (hi : i < 6) : r.bit (i + 1) = false :=
    (bit_shift_of_ne h (by omega) (fun _ => by omega)).symm.trans (hb i (by omega))
  obtain ⟨_ | i, hi, hs⟩ := hl
  case zero =>
    have ht : r.tap = false := (bit_shift_short h 6).symm.trans (hb 6 (by decide))
    exact Bool.false_ne_true ((bit_zero_of_tap ht (hr 0 (by decide))).symm.trans hs)
  case succ => exact Bool.false_ne_true ((hr i (by omega)).symm.trans hs)

theorem walk_append (r : Lfsr) (ms ns : List Bool) : r.walk (ms ++ ns) = (r.walk ms).walk ns :=
  List.foldl_append

-- Zero is left by no shift.
theorem walk_of_zero (h : r.bits = 0) (modes : List Bool) : (r.walk modes).bits = 0 := by
  induction modes generalizing r with
  | nil => exact h
  | cons short modes ih =>
    obtain ⟨b⟩ := r
    obtain rfl : b = 0 := h
    exact ih (by cases short <;> rfl)

-- A walk comes to zero by one kind of shift only.
theorem walk_eq_zero_iff (h : r.bits ≤ 0x7fff) (h0 : r.bits ≠ 0) : (r.walk modes).bits = 0 ↔
    ∃ before after, modes = before ++ true :: after ∧ (r.walk before).bits = 0x80 := by
  constructor
  case mpr =>
    rintro ⟨before, after, rfl, hb⟩
    have hz : ((r.walk before).shift true).bits = 0 :=
      (shift_eq_zero_iff (walk_le h before)).mpr (.inr ⟨rfl, hb⟩)
    rw [walk_append]
    exact walk_of_zero hz after
  case mp =>
    intro hz
    induction modes using List.reverseRecOn with
    | nil => exact absurd hz h0
    | append_singleton modes short ih =>
      rw [walk_append] at hz
      obtain hz | ⟨rfl, hb⟩ := (shift_eq_zero_iff (walk_le h modes)).mp hz
      · obtain ⟨before, after, rfl, hb⟩ := ih hz
        exact ⟨before, after ++ [short], by simp, hb⟩
      · exact ⟨modes, [], rfl, hb⟩

-- Neither mode leads to zero, the short one as long as it starts with one of the low bits set.
structure Awake (r : Lfsr) (short : Bool) : Prop where
  le      : r.bits ≤ 0x7fff
  ne_zero : r.bits ≠ 0
  low     : short → r.LowSet

theorem Awake.shift (h : r.Awake short) : (r.shift short).Awake short := by
  cases short
  case true =>
    have hl : (r.shift true).LowSet := (h.low rfl).shift h.le
    exact ⟨shift_le h.le true, hl.ne_zero, fun _ => hl⟩
  case false =>
    refine ⟨shift_le h.le false, fun hz => ?_, nofun⟩
    obtain hz | ⟨hs, -⟩ := (shift_eq_zero_iff h.le).mp hz
    · exact h.ne_zero hz
    · exact Bool.false_ne_true hs

theorem Awake.walk_replicate (h : r.Awake short) (n : Nat) :
    (r.walk (.replicate n short)).Awake short := by
  induction n generalizing r with
  | zero      => exact h
  | succ n ih => exact ih h.shift

end Lfsr

namespace Noise

variable (n : Noise)

-- The shifts of the next ticks, each by its mode.
def shiftsIn (ticks : Nat) : List Bool :=
  if n.enabled then .replicate (n.ticks.run ticks).fst n.shortMode else []

theorem lfsr_clock (ticks : Nat) : (n.clock ticks).lfsr = n.lfsr.walk (n.shiftsIn ticks) := by
  have hr (edges : Nat) (r : Lfsr) : Nat.repeat (Lfsr.shift n.shortMode) edges r =
      r.walk (.replicate edges n.shortMode) := by
    induction edges with
    | zero          => rfl
    | succ edges ih =>
      rw [List.replicate_succ', Lfsr.walk_append, ← ih]
      rfl
  simp only [clock, shiftsIn]
  split
  case isTrue  => exact hr ..
  case isFalse => rfl

end Noise
end DotMatrix.Sound
