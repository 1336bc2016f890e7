import Mathlib.Logic.Function.Iterate
import DotMatrix.Counter

namespace DotMatrix

theorem repeat_eq_iterate {σ : Type} (f : σ → σ) (n : Nat) (x : σ) :
    Nat.repeat f n x = f^[n] x := by
  induction n with
  | zero      => rfl
  | succ n ih => exact (congrArg f ih).trans (Function.iterate_succ_apply' f n x).symm

namespace Counter

variable {c : Counter}

theorem drain_eq (h : 0 < c.period) (edges : Nat) :
    c.drain edges = (edges + c.elapsed / c.period, { c with elapsed := c.elapsed % c.period }) := by
  induction c, edges using drain.induct
  case case1 c edges hd hi =>
    have hd' : 0 < c.period ∧ c.period ≤ c.elapsed := hd
    rw [drain, dif_pos hd, hi h]
    simp only [take, Nat.div_eq_sub_div h hd'.right, Nat.mod_eq_sub_mod hd'.right, Prod.mk.injEq,
      and_true]
    omega
  case case2 c edges hd =>
    have hl : c.elapsed < c.period := Nat.lt_of_not_le fun hl => hd ⟨h, hl⟩
    rw [drain, dif_neg hd, Nat.div_eq_of_lt hl, Nat.mod_eq_of_lt hl]
    rfl

theorem run_eq (h : 0 < c.period) (ticks : Nat) :
    c.run ticks = ((c.elapsed + ticks) / c.period,
      { c with elapsed := (c.elapsed + ticks) % c.period }) := by
  have h' : 0 < (c.accrue ticks).period := h
  have hd := drain_eq h' 0
  rw [Nat.zero_add] at hd
  exact hd

-- Division by zero counts no edge, as a counter of period zero does.
theorem run_eq_div_mod (c : Counter) (ticks : Nat) :
    c.run ticks = ((c.elapsed + ticks) / c.period,
      { c with elapsed := (c.elapsed + ticks) % c.period }) := by
  by_cases h : 0 < c.period
  case pos => exact run_eq h ticks
  case neg =>
    have hd : ¬(c.accrue ticks).Due := fun hd => h hd.left
    have hz : c.period = 0 := Nat.eq_zero_of_not_pos h
    rw [run, drain, dif_neg hd, hz, Nat.div_zero, Nat.mod_zero, accrue, hz]

-- What is left of the first part of a sum goes into the second one.
theorem add_div_of_mod (m n period : Nat) :
    (m + n) / period = m / period + (m % period + n) / period := by
  by_cases h : 0 < period
  case pos =>
    have hs : m + n = period * (m / period) + (m % period + n) := by
      have := Nat.div_add_mod m period
      omega
    rw [hs, Nat.mul_add_div h]
  case neg => simp only [Nat.eq_zero_of_not_pos h, Nat.div_zero]

-- Ticks may come in one go or in two.
theorem run_add (c : Counter) (m n : Nat) :
    c.run (m + n) = ((c.run m).fst + ((c.run m).snd.run n).fst, ((c.run m).snd.run n).snd) := by
  simp only [run_eq_div_mod, ← Nat.add_assoc, Nat.mod_add_mod, add_div_of_mod (c.elapsed + m) n]

-- A counter that started from zero goes on as if all ticks so far had come at once.
theorem run_of_elapsed_mod {period total : Nat} (h : 0 < period)
    (hc : c = { elapsed := total % period, period }) (ticks : Nat) :
    c.run ticks = ((total + ticks) / period - total / period,
      { elapsed := (total + ticks) % period, period }) := by
  subst hc
  rw [run_eq h, Nat.mod_add_mod, add_div_of_mod total, Nat.add_sub_cancel_left]

end Counter
end DotMatrix
