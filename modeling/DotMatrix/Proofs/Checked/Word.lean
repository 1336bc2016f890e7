import DotMatrix.Bits

namespace DotMatrix

-- A computation that a failed check stops.
abbrev Checked (α : Type) := Option α

namespace Checked

-- A number that must fit a word of some bits.
def fit (width n : Nat) : Checked Nat := if n < 1 <<< width then some n else none

def add (width a b : Nat) : Checked Nat := fit width (a + b)

def mul (width a b : Nat) : Checked Nat := fit width (a * b)

-- Words have no signs.
def sub (a b : Nat) : Checked Nat := if b ≤ a then some (a - b) else none

-- A number with a sign that must fit a word of some bits.
def signed (width : Nat) (n : Int) : Checked Int :=
  if -(1 <<< width : Nat) ≤ 2 * n ∧ 2 * n < (1 <<< width : Nat) then some n else none

-- How far a word is shifted.
def shift (width n : Nat) : Checked Nat := if n < width then some n else none

-- An index into an array.
def index (size i : Nat) : Checked (Fin size) := if h : i < size then some ⟨i, h⟩ else none

-- An index by the distance from where the array begins.
def distance (size start a : Nat) : Checked (Fin size) := do
  let i ← sub a start
  index size i

variable {width size start a b n i : Nat}

theorem fit_eq (h : n < 1 <<< width) : fit width n = some n := if_pos h

theorem eq_of_fit {m : Nat} (h : fit width n = some m) : m = n := by
  simp only [fit] at h
  split at h
  · exact (Option.some.inj h).symm
  · cases h

theorem add_eq (h : a + b < 1 <<< width) : add width a b = some (a + b) := if_pos h

theorem mul_eq (h : a * b < 1 <<< width) : mul width a b = some (a * b) := if_pos h

theorem sub_eq (h : b ≤ a) : sub a b = some (a - b) := if_pos h

theorem signed_eq {n : Int} (hl : -(1 <<< width : Nat) ≤ 2 * n)
    (hh : 2 * n < (1 <<< width : Nat)) : signed width n = some n :=
  if_pos ⟨hl, hh⟩

theorem shift_eq (h : n < width) : shift width n = some n := if_pos h

theorem index_eq (h : i < size) : index size i = some ⟨i, h⟩ := dif_pos h

theorem distance_eq (h : start ≤ a) (hi : a - start < size) :
    distance size start a = some ⟨a - start, hi⟩ := by
  rw [distance, sub_eq h]
  exact index_eq hi

section

variable {α β : Type}

theorem filterMapM_eq {f : α → Checked (Option β)} {g : α → Option β} (h : ∀ x, f x = some (g x))
    (xs : List α) : xs.filterMapM f = some (xs.filterMap g) := by
  induction xs with
  | nil => rfl
  | cons x xs ih =>
    rw [List.filterMapM_cons, h, ih, List.filterMap_cons]
    cases g x <;> rfl

theorem ofFnM_eq {f : Fin n → Checked α} {g : Fin n → α} (h : ∀ i, f i = some (g i)) :
    Vector.ofFnM f = some (Vector.ofFn g) := by
  rw [funext h]
  exact Vector.ofFnM_pure_comp

end

end Checked

theorem bitField_lt (b : UInt8) (low width : Nat) : bitField b low width < 1 <<< width := by
  simp only [bitField, Nat.one_shiftLeft]
  exact Nat.mod_lt _ (Nat.two_pow_pos width)

-- The byte in which only one bit is set.
def checkedBit (i : Nat) : Checked UInt8 := do
  let i ← Checked.shift 8 i
  return 1 <<< UInt8.ofNat i

theorem checkedBit_eq {i : Nat} (h : i < 8) : checkedBit i = some (bitIf true (.ofNat i)) := by
  rw [checkedBit, Checked.shift_eq h]
  rfl

end DotMatrix
