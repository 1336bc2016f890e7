import DotMatrix.Proofs.SaveFile
import Mathlib.Data.Nat.Digits.Lemmas

namespace DotMatrix

-- The first one is of one kind and all others are of another.
def Led {α γ : Type} (kind : α → γ) (first next : γ) (ds : List α) : Prop :=
  ds.map kind = first :: .replicate (ds.length - 1) next

namespace Led

variable {α γ : Type} {kind : α → γ} {first next : γ} {ds : List α}

theorem ne_nil (h : Led kind first next ds) : ds ≠ [] := by
  rintro rfl
  cases h

theorem head (h : Led kind first next ds) : kind (ds.head h.ne_nil) = first := by
  obtain ⟨d, ds, rfl, hd, -⟩ := List.map_eq_cons_iff.mp h
  exact hd

theorem tail (h : Led kind first next ds) : ∀ d ∈ ds.tail, kind d = next := by
  obtain ⟨d, ds, rfl, -, hs⟩ := List.map_eq_cons_iff.mp h
  exact fun e hm => List.eq_of_mem_replicate (hs ▸ List.mem_map_of_mem hm)

theorem mem (h : Led kind first next ds) : ∀ d ∈ ds, kind d = first ∨ kind d = next := by
  intro d hm
  rw [← List.cons_head_tail h.ne_nil] at hm
  rcases List.mem_cons.mp hm with rfl | hm
  · exact .inl h.head
  · exact .inr (h.tail d hm)

end Led

-- Two digits and a carry make up a digit and a carry, which counts for one in the next place.
def Adds (base x y : Nat) (carry : Bool) (sum : Nat) (out : Bool) : Prop :=
  x + y + carry.toNat = sum + base * out.toNat

namespace Adds

instance (base x y : Nat) (carry : Bool) (sum : Nat) (out : Bool) :
    Decidable (Adds base x y carry sum out) :=
  inferInstanceAs (Decidable (_ = _))

variable {base : Nat}

theorem of_ite {x y sum : Nat} {carry : Bool} {p : Prop} [Decidable p]
    (h : x + y + carry.toNat = sum + if p then base else 0) :
    Adds base x y carry sum (decide p) := by
  rw [Adds, h]
  split <;> simp [*]

-- A digit below another one, which takes its carry.
theorem append {above x y sum xs ys sums : Nat} {carry out last : Bool}
    (h : Adds base x y carry sum out) (hs : Adds above xs ys out sums last) :
    Adds (base * above) (x + base * xs) (y + base * ys) carry (sum + base * sums) last := by
  simp only [Adds] at *
  calc x + base * xs + (y + base * ys) + carry.toNat
    _ = x + y + carry.toNat + base * (xs + ys) := by ring
    _ = sum + base * (xs + ys + out.toNat) := by rw [h]; ring
    _ = sum + base * sums + base * above * last.toNat := by rw [hs]; ring

section Lists

variable {α : Type} {x y sum : α → Nat} {carry out : α → Bool} {ds : List α}

-- The digits from the lowest to the highest, each with the carry of the one before it.
theorem ofDigits (hn : ds ≠ []) (hd : ∀ d ∈ ds, Adds base (x d) (y d) (carry d) (sum d) (out d))
    (hl : ds.IsChain fun d e => carry e = out d) :
    Adds (base ^ ds.length) (Nat.ofDigits base (ds.map x)) (Nat.ofDigits base (ds.map y))
      (carry (ds.head hn)) (Nat.ofDigits base (ds.map sum)) (out (ds.getLast hn)) := by
  induction ds with
  | nil => contradiction
  | cons d ds ih =>
    have h := hd d List.mem_cons_self
    cases ds with
    | nil => simpa using h
    | cons e ds =>
      obtain ⟨hc, hl⟩ := List.isChain_cons_cons.mp hl
      have ih := ih (List.cons_ne_nil e ds) (fun d hm => hd d (List.mem_cons_of_mem _ hm)) hl
      rw [List.head_cons, hc] at ih
      rw [List.length_cons, Nat.pow_succ']
      simp only [List.map_cons, Nat.ofDigits_cons] at ih ⊢
      exact h.append ih

-- The digits from the highest to the lowest, each with a carry for the one before it.
theorem ofDigits_reverse (hn : ds ≠ [])
    (hd : ∀ d ∈ ds, Adds base (x d) (y d) (carry d) (sum d) (out d))
    (hl : ds.IsChain fun d e => carry d = out e) :
    Adds (base ^ ds.length) (Nat.ofDigits base (ds.map x).reverse)
      (Nat.ofDigits base (ds.map y).reverse) (carry (ds.getLast hn))
      (Nat.ofDigits base (ds.map sum).reverse) (out (ds.head hn)) := by
  have hr : ds.reverse ≠ [] := by simpa using hn
  have h := ofDigits hr (fun d hm => hd d (List.mem_reverse.mp hm)) (List.isChain_reverse.mpr hl)
  rw [List.length_reverse, List.head_reverse, List.getLast_reverse] at h
  simpa only [List.map_reverse] using h

end Lists

variable {x y sum : Nat} {out : Bool}

theorem eq_mod (h : Adds base x y false sum out) (hs : sum < base) :
    sum = (x + y) % base ∧ (out = true ↔ base ≤ x + y) := by
  have h : x + y = sum + base * out.toNat := h
  rw [h, Nat.add_mul_mod_self_left, Nat.mod_eq_of_lt hs]
  cases out <;> simp [hs]

-- What makes up a number together with another one is their difference.
theorem eq_sub_mod (h : Adds base x y false sum out) (hx : x < base) :
    x = (((sum : Int) - y) % base).toNat ∧ (out = true ↔ sum < y) := by
  have h : x + y = sum + base * out.toNat := h
  have hb : (x : Int) % base = x := Int.emod_eq_of_lt (by omega) (by omega)
  cases out
  case false =>
    have ht : sum = x + y := by simpa using h.symm
    have hd : (sum : Int) - y = x := by omega
    rw [hd, hb]
    exact ⟨rfl, by simp [ht]⟩
  case true =>
    have ht : sum + base = x + y := by simpa using h.symm
    have hd : (sum : Int) - y = x - base := by omega
    rw [hd, Int.sub_emod_right, hb]
    exact ⟨rfl, by simp only [true_iff]; omega⟩

variable {half x : Nat} {low top : Bool}

theorem eq_half (h : Adds base half half low x false) : half = x / 2 ∧ low = x.testBit 0 := by
  have h : half + half + low.toNat = x := h
  rw [Nat.testBit_zero]
  cases low <;> simp at h ⊢ <;> omega

theorem eq_half_bmod (h : Adds base half half low x top) (hb : base % 2 = 0) (hx : x < base)
    (hh : half < base) (ht : top = true ↔ base ≤ x + x) :
    half = ((x : Int).bmod base / 2 % base).toNat ∧ low = x.testBit 0 := by
  have h : half + half + low.toNat = x + base * top.toNat := h
  have hm : (x : Int) % base = x := Int.emod_eq_of_lt (by omega) (by omega)
  have hr : (half : Int) % base = half := Int.emod_eq_of_lt (by omega) (by omega)
  have hl := low.toNat_le
  have hlow : low = x.testBit 0 := by
    rw [Nat.testBit_zero]
    cases low <;> cases top <;> simp at h ⊢ <;> omega
  refine ⟨?_, hlow⟩
  rw [Int.bmod, hm]
  cases top
  case false =>
    rw [Bool.toNat_false, Nat.mul_zero] at h
    have hlt : ¬base ≤ x + x := by simpa using ht
    have hd : (x : Int) / 2 = half := by omega
    rw [if_pos (by omega), hd, hr]
    rfl
  case true =>
    rw [Bool.toNat_true, Nat.mul_one] at h
    have hle : base ≤ x + x := ht.mp rfl
    have hd : ((x : Int) - base) / 2 = half - base := by omega
    rw [if_neg (by omega), hd, Int.sub_emod_right, hr]
    rfl

end Adds

namespace Bytes

theorem ofLittleEndian_map {α : Type} (f : α → UInt8) (ds : List α) :
    ofLittleEndian (ds.map f) = Nat.ofDigits 256 (ds.map fun d => (f d).toNat) := by
  induction ds with
  | nil => rfl
  | cons d ds ih => simp only [List.map_cons, ofLittleEndian, Nat.ofDigits_cons, ih]

theorem littleEndian_ofLittleEndian (bs : List UInt8) :
    littleEndian bs.length (ofLittleEndian bs) = bs := by
  induction bs with
  | nil => rfl
  | cons b bs ih =>
    have hb := b.toNat_lt
    have hd : (b.toNat + 256 * ofLittleEndian bs) / 256 = ofLittleEndian bs := by omega
    have hm : UInt8.ofNat (b.toNat + 256 * ofLittleEndian bs) = b := by
      rw [← UInt8.toNat_inj, UInt8.toNat_ofNat']
      omega
    rw [List.length_cons, littleEndian, ofLittleEndian, hd, hm, ih]

theorem map_eq_littleEndian {α : Type} {f : α → UInt8} {ds : List α} {n : Nat}
    (h : ofLittleEndian (ds.map f) = n) : ds.map f = littleEndian ds.length n := by
  rw [← h, ← ds.length_map f, littleEndian_ofLittleEndian]

theorem ofLittleEndian_map_lt {α : Type} (f : α → UInt8) (ds : List α) :
    ofLittleEndian (ds.map f) < 256 ^ ds.length := by
  induction ds with
  | nil => exact Nat.one_pos
  | cons d ds ih =>
    have hd := (f d).toNat_lt
    rw [List.map_cons, List.length_cons, ofLittleEndian, Nat.pow_succ]
    omega

theorem ofBigEndian_map {α : Type} (f : α → UInt8) (ds : List α) :
    ofBigEndian (ds.map f) = Nat.ofDigits 256 (ds.map fun d => (f d).toNat).reverse := by
  rw [ofBigEndian, ← List.map_reverse, ofLittleEndian_map, List.map_reverse]

theorem map_eq_bigEndian {α : Type} {f : α → UInt8} {ds : List α} {n : Nat}
    (h : ofBigEndian (ds.map f) = n) : ds.map f = bigEndian ds.length n := by
  rw [ofBigEndian, ← List.map_reverse] at h
  have hs := map_eq_littleEndian h
  rw [List.length_reverse, List.map_reverse] at hs
  rw [bigEndian, ← hs, List.reverse_reverse]

theorem ofBigEndian_map_lt {α : Type} (f : α → UInt8) (ds : List α) :
    ofBigEndian (ds.map f) < 256 ^ ds.length := by
  rw [ofBigEndian, ← List.map_reverse, ← ds.length_reverse]
  exact ofLittleEndian_map_lt f ds.reverse

theorem ofLittleEndian_concat (bs : List UInt8) (b : UInt8) :
    ofLittleEndian (bs ++ [b]) = ofLittleEndian bs + 256 ^ bs.length * b.toNat := by
  induction bs with
  | nil => simp [ofLittleEndian]
  | cons c bs ih =>
    rw [List.cons_append, ofLittleEndian, ih, ofLittleEndian, List.length_cons]
    ring

-- The highest bit of a number of some bytes.
theorem testBit_top {n x : Nat} (hn : n ≠ 0) (hx : x < 256 ^ n) :
    x.testBit (8 * n - 1) = true ↔ 256 ^ n ≤ x + x := by
  have hp : 256 ^ n = 2 * 2 ^ (8 * n - 1) := by
    rw [← Nat.pow_succ', show (256 : Nat) = 2 ^ 8 from rfl, ← Nat.pow_mul]
    congr 1
    omega
  have hq : x / 2 ^ (8 * n - 1) < 2 := Nat.div_lt_of_lt_mul (by omega)
  rw [Nat.testBit_eq_decide_div_mod_eq, decide_eq_true_iff, Nat.mod_eq_of_lt hq]
  have h1 : 1 ≤ x / 2 ^ (8 * n - 1) ↔ 2 ^ (8 * n - 1) ≤ x := Nat.one_le_div_iff (by positivity)
  omega

end Bytes
end DotMatrix
