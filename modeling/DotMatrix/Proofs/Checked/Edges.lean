import Mathlib.Algebra.Ring.Nat
import DotMatrix.Proofs.Checked.Counter

namespace DotMatrix.Counter

-- The edges within some stretches of time, and the counter after them.
def runs (c : Counter) : List Nat → Nat × Counter
  | []      => (0, c)
  | n :: ns =>
    let (first, c)  := c.run n
    let (others, c) := c.runs ns
    (first + others, c)

-- What single calls report.
def reports (c : Counter) : List Nat → List Bool × Counter
  | []      => ([], c)
  | n :: ns =>
    let (edge, c)  := c.advance n
    let (edges, c) := c.reports ns
    (edge :: edges, c)

-- Runs a piece of code at each edge within some stretches of time.
def eachEdgeOf {σ : Type} (edge : σ → Checked σ) (c : Counter) :
    List Nat → σ → Checked (σ × Counter)
  | [], s      => some (s, c)
  | n :: ns, s => do
    let (s, c) ← eachEdge edge c n s
    eachEdgeOf edge c ns s

def checkedReports (c : Counter) : List Nat → Checked (List Bool × Counter)
  | []      => some ([], c)
  | n :: ns => do
    let (edge, c)  ← c.checkedAdvance n
    let (edges, c) ← c.checkedReports ns
    return (edge :: edges, c)

variable {c : Counter} {ns : List Nat}

theorem accrue_accrue (c : Counter) (m n : Nat) : (c.accrue m).accrue n = c.accrue (m + n) := by
  simp only [accrue, Nat.add_assoc]

section Runs

theorem runs_cons (c : Counter) (n : Nat) (ns : List Nat) :
    let first := c.run n
    let others := first.snd.runs ns
    c.runs (n :: ns) = (first.fst + others.fst, others.snd) :=
  rfl

-- Any division of some time will do.
theorem runs_eq_run (c : Counter) (h : ns ≠ []) : c.runs ns = c.run ns.sum := by
  induction ns generalizing c with
  | nil => exact absurd rfl h
  | cons n ns ih =>
    cases ns with
    | nil => rw [runs_cons, List.sum_singleton]; rfl
    | cons n' ns =>
      have ho := ih (c.run n).snd (List.cons_ne_nil n' ns)
      rw [runs_cons, ho]
      exact (c.run_add n _).symm

theorem runs_of_period_zero (h : c.period = 0) (ns : List Nat) :
    c.runs ns = (0, c.accrue ns.sum) := by
  cases ns with
  | nil       => rfl
  | cons n ns =>
    rw [c.runs_eq_run (List.cons_ne_nil n ns), run_eq_div_mod, h, Nat.div_zero, Nat.mod_zero,
      accrue, h]

theorem elapsed_run_le (c : Counter) (n : Nat) : (c.run n).snd.elapsed ≤ c.elapsed + n := by
  rw [run_eq_div_mod]
  exact Nat.mod_le ..

theorem eachEdgeOf_eq {σ : Type} (edge : σ → σ) (h : c.elapsed + ns.sum < 1 <<< 64) (s : σ) :
    c.eachEdgeOf (fun s => some (edge s)) ns s =
      some (Nat.repeat edge (c.runs ns).fst s, (c.runs ns).snd) := by
  induction ns generalizing c s with
  | nil          => rfl
  | cons n ns ih =>
    rw [List.sum_cons] at h
    have hl := c.elapsed_run_le n
    have hn : c.elapsed + n < 1 <<< 64 := by omega
    have hns : (c.run n).snd.elapsed + ns.sum < 1 <<< 64 := by omega
    rw [eachEdgeOf, eachEdge_of_total edge hn]
    simp only [Option.bind_eq_bind, Option.bind_some]
    rw [ih hns, runs_cons]
    simp only [repeat_eq_iterate, ← Function.iterate_add_apply, Nat.add_comm]

end Runs

section Reports

theorem reports_cons (c : Counter) (n : Nat) (ns : List Nat) :
    let first := c.advance n
    let others := first.snd.reports ns
    c.reports (n :: ns) = (first.fst :: others.fst, others.snd) :=
  rfl

theorem length_reports (c : Counter) (ns : List Nat) : (c.reports ns).fst.length = ns.length := by
  induction ns generalizing c with
  | nil          => rfl
  | cons n ns ih => exact congrArg (· + 1) (ih (c.advance n).snd)

theorem reports_append (c : Counter) (ns ms : List Nat) :
    let first := c.reports ns
    let others := first.snd.reports ms
    c.reports (ns ++ ms) = (first.fst ++ others.fst, others.snd) := by
  induction ns generalizing c with
  | nil          => rfl
  | cons n ns ih =>
    have ho := ih (c.advance n).snd
    rw [List.cons_append, reports_cons, reports_cons, ho]
    rfl

theorem advance_of_due {n : Nat} (h : (c.accrue n).Due) :
    c.advance n = (true, (c.accrue n).take) :=
  if_pos h

theorem advance_of_not_due {n : Nat} (h : ¬(c.accrue n).Due) : c.advance n = (false, c.accrue n) :=
  if_neg h

theorem period_advance (c : Counter) (n : Nat) : (c.advance n).snd.period = c.period := by
  simp only [advance]
  split <;> rfl

-- The ticks of a call are kept, but for the period that is reported.
theorem elapsed_advance (c : Counter) (n : Nat) :
    (c.advance n).snd.elapsed + c.period * (c.advance n).fst.toNat = c.elapsed + n := by
  by_cases h : (c.accrue n).Due
  case pos =>
    have hl : c.period ≤ c.elapsed + n := h.right
    rw [advance_of_due h, Bool.toNat_true, Nat.mul_one]
    exact Nat.sub_add_cancel hl
  case neg => rw [advance_of_not_due h]; rfl

theorem period_reports (c : Counter) (ns : List Nat) : (c.reports ns).snd.period = c.period := by
  induction ns generalizing c with
  | nil          => rfl
  | cons n ns ih => exact (ih (c.advance n).snd).trans (c.period_advance n)

-- No ticks are lost: those that are left and the periods that are reported make up all of them.
theorem elapsed_reports (c : Counter) (ns : List Nat) :
    (c.reports ns).snd.elapsed + c.period * (c.reports ns).fst.count true =
      c.elapsed + ns.sum := by
  induction ns generalizing c with
  | nil          => rfl
  | cons n ns ih =>
    have ha := c.elapsed_advance n
    have ho := ih (c.advance n).snd
    rw [period_advance] at ho
    have hc (b : Bool) (bs : List Bool) : (b :: bs).count true = b.toNat + bs.count true := by
      cases b
      case false => rw [List.count_cons_of_ne (by decide), Bool.toNat_false, Nat.zero_add]
      case true  => rw [List.count_cons_self, Bool.toNat_true, Nat.add_comm]
    simp only [reports_cons, hc, List.sum_cons, Nat.mul_add]
    omega

theorem checkedReports_eq (h : c.elapsed + ns.sum < 1 <<< 64) :
    c.checkedReports ns = some (c.reports ns) := by
  induction ns generalizing c with
  | nil          => rfl
  | cons n ns ih =>
    rw [List.sum_cons] at h
    have hl := c.elapsed_advance n
    have hn : c.elapsed + n < 1 <<< 64 := by omega
    have hns : (c.advance n).snd.elapsed + ns.sum < 1 <<< 64 := by omega
    rw [checkedReports, checkedAdvance_eq hn]
    simp only [Option.bind_eq_bind, Option.bind_some]
    rw [ih hns]
    rfl

theorem reports_of_lt (h : c.elapsed < c.period) (k : Nat) :
    c.reports (List.replicate k 0) = (List.replicate k false, c) := by
  have hd : ¬(c.accrue 0).Due := fun hd => Nat.not_le_of_lt h hd.right
  induction k with
  | zero      => rfl
  | succ k ih =>
    rw [List.replicate_succ, reports_cons, advance_of_not_due hd]
    simp only [accrue, Nat.add_zero, ih]
    rfl

-- Calls without ticks report what is due, and then no more.
theorem reports_drain (h : 0 < c.period) (k : Nat) :
    c.reports (List.replicate (c.elapsed / c.period + k) 0) =
      (List.replicate (c.elapsed / c.period) true ++ List.replicate k false,
        { c with elapsed := c.elapsed % c.period }) := by
  induction hq : c.elapsed / c.period generalizing c with
  | zero =>
    have hl : c.elapsed < c.period := (Nat.div_eq_zero_iff_lt h).mp hq
    rw [Nat.zero_add, reports_of_lt hl, Nat.mod_eq_of_lt hl]
    rfl
  | succ due ih =>
    have hl : c.period ≤ c.elapsed := by
      refine Nat.le_of_not_lt fun hl => ?_
      rw [Nat.div_eq_of_lt hl] at hq
      cases hq
    have hd : (c.accrue 0).Due := ⟨h, hl⟩
    have hp : 0 < (c.accrue 0).take.period := h
    have hn : (c.accrue 0).take.elapsed / (c.accrue 0).take.period = due := by
      rw [Nat.div_eq_sub_div h hl] at hq
      exact Nat.succ.inj hq
    rw [Nat.succ_add, List.replicate_succ, reports_cons, advance_of_due hd]
    simp only [ih hp hn, Nat.mod_eq_sub_mod hl]
    rfl

theorem reports_of_period_zero (h : c.period = 0) (ns : List Nat) :
    c.reports ns = (List.replicate ns.length false, c.accrue ns.sum) := by
  induction ns generalizing c with
  | nil          => rfl
  | cons n ns ih =>
    have hd : ¬(c.accrue n).Due := fun hd => Nat.ne_of_gt hd.left h
    have hz : (c.accrue n).period = 0 := h
    rw [reports_cons, advance_of_not_due hd, List.sum_cons, ← accrue_accrue]
    simp only [ih hz]
    rfl

end Reports

-- Whatever calls there are, code that runs at each edge runs once for every period that their ticks
-- and those collected before complete, and what is left is the rest of the division. A call that
-- reports at most one edge leaves the others due, and calls without ticks report just these. A
-- counter of period zero has no edges. No word overflows, if it can hold all of the ticks.
theorem edges_of_calls (c : Counter) {ns : List Nat} (h : c.elapsed + ns.sum < 1 <<< 64) :
    let total := c.elapsed + ns.sum
    let told := (c.reports ns).fst
    let due := total / c.period - told.count true
    (∀ {σ : Type} (edge : σ → σ) (s : σ), c.eachEdgeOf (fun s => some (edge s)) ns s =
      some (Nat.repeat edge (c.runs ns).fst s, (c.runs ns).snd)) ∧
    (0 < c.period →
      (ns ≠ [] → c.runs ns = (total / c.period, { c with elapsed := total % c.period })) ∧
      told.length = ns.length ∧ told.count true ≤ total / c.period ∧
      ∀ k, c.checkedReports (ns ++ List.replicate (due + k) 0) = some
        (told ++ (List.replicate due true ++ List.replicate k false),
          { c with elapsed := total % c.period })) ∧
    (c.period = 0 → c.runs ns = (0, { c with elapsed := total }) ∧
      c.checkedReports ns = some (List.replicate ns.length false, { c with elapsed := total })) := by
  intro total told due
  have ht : (c.reports ns).snd.elapsed + c.period * told.count true = total := c.elapsed_reports ns
  have hp := c.period_reports ns
  refine ⟨fun edge s => eachEdgeOf_eq edge h s, fun hc => ?counts, fun hz => ?never⟩
  case counts =>
    have hq : total / c.period = (c.reports ns).snd.elapsed / c.period + told.count true := by
      rw [← ht, Nat.add_mul_div_left _ _ hc]
    have hd : due = (c.reports ns).snd.elapsed / c.period := Nat.sub_eq_of_eq_add hq
    have hm : total % c.period = (c.reports ns).snd.elapsed % c.period := by
      rw [← ht, Nat.add_mul_mod_self_left]
    refine ⟨fun hn => ?_, c.length_reports ns, ?_, fun k => ?_⟩
    · rw [c.runs_eq_run hn, run_eq hc]
    · exact hq ▸ Nat.le_add_left ..
    · have hb : c.elapsed + (ns ++ List.replicate (due + k) 0).sum < 1 <<< 64 := by simpa using h
      have hr := reports_drain (hp ▸ hc) k
      rw [hp, ← hd, ← hm] at hr
      rw [checkedReports_eq hb, reports_append, hr]
  case never =>
    rw [checkedReports_eq h, reports_of_period_zero hz, runs_of_period_zero hz]
    exact ⟨rfl, rfl⟩

-- A hundred ticks of a long period are six periods of a short one.
theorem edges_of_calls_rearmed :
    let c := (Counter.mk 100 1024).rearm 16
    let z : Counter := { elapsed := 5 }
    let ns := [3, 0, 40]
    c.elapsed + ns.sum < 1 <<< 64 ∧ 0 < c.period ∧ ns ≠ [] ∧
    c.eachEdgeOf (fun n => some (n + 1)) ns 0 = some (8, { elapsed := 15, period := 16 }) ∧
    c.checkedReports (ns ++ List.replicate 7 0) =
      some (List.replicate 8 true ++ [false, false], { elapsed := 15, period := 16 }) ∧
    z.elapsed + ns.sum < 1 <<< 64 ∧ z.period = 0 ∧
    z.checkedReports ns = some ([false, false, false], { elapsed := 48 }) := by
  intro c z ns
  have hb : c.elapsed + ns.sum < 1 <<< 64 := by decide
  have hz : z.elapsed + ns.sum < 1 <<< 64 := by decide
  have hc : 0 < c.period := by decide
  have hn : ns ≠ [] := List.cons_ne_nil _ _
  have hq : (c.elapsed + ns.sum) / c.period = 8 := by decide
  have ht : (c.reports ns).fst = [true, true, true] := by decide
  obtain ⟨he, hd, -⟩ := edges_of_calls c hb
  obtain ⟨hr, -, -, hd⟩ := hd hc
  obtain ⟨-, -, hf⟩ := edges_of_calls z hz
  refine ⟨hb, hc, hn, ?code, ?drained, hz, rfl, (hf rfl).right.trans (by decide)⟩
  case code =>
    rw [he, hr hn]
    decide
  case drained =>
    have hd := hd 2
    rw [hq, ht] at hd
    exact hd.trans (by decide)

end DotMatrix.Counter
