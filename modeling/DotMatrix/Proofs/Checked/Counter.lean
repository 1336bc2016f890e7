import DotMatrix.Proofs.Checked.Word
import DotMatrix.Proofs.Counter

namespace DotMatrix.Counter

variable {c : Counter} {ticks : Nat}

def checkedAdvance (c : Counter) (ticks : Nat) : Checked (Bool × Counter) := do
  let elapsed ← Checked.add 64 c.elapsed ticks
  if c.period ≠ 0 ∧ c.period ≤ elapsed then
    let elapsed ← Checked.sub elapsed c.period
    return (true, { c with elapsed })
  else
    return (false, { c with elapsed })

theorem checkedAdvance_eq (h : c.elapsed + ticks < 1 <<< 64) :
    c.checkedAdvance ticks = some (c.advance ticks) := by
  simp only [checkedAdvance, Checked.add_eq h, Option.bind_eq_bind, Option.bind_some, advance, Due,
    accrue, Nat.pos_iff_ne_zero]
  split
  case isTrue hd =>
    rw [Checked.sub_eq hd.right]
    rfl
  case isFalse => rfl

theorem checkedAdvance_eq_none (h : ¬c.elapsed + ticks < 1 <<< 64) :
    c.checkedAdvance ticks = none := by
  simp only [checkedAdvance, Checked.add, Checked.fit, if_neg h]
  rfl

-- The bound is needed: a counter that never completes a period overflows in the end.
example : checkedAdvance { period := 0, elapsed := 1 <<< 64 - 1 } 1 = none := by decide

theorem checkedAdvance_lt {d : Counter} (h : c.checkedAdvance ticks = some (true, d)) :
    d.elapsed < c.elapsed + ticks := by
  have ⟨elapsed, he, h⟩ := Option.bind_eq_some_iff.mp h
  have he : elapsed = c.elapsed + ticks := Checked.eq_of_fit he
  split at h
  case isTrue hd =>
    rw [Checked.sub_eq hd.right] at h
    cases h
    have := hd.left
    simp only
    omega
  case isFalse => cases h

-- Runs a piece of code at each edge within some ticks.
def eachEdge {σ : Type} (edge : σ → Checked σ) (c : Counter) (ticks : Nat) (s : σ) :
    Checked (σ × Counter) :=
  match _ : c.checkedAdvance ticks with
  | none            => none
  | some (false, c) => some (s, c)
  | some (true, c)  => (edge s).bind fun s => eachEdge edge c 0 s
termination_by c.elapsed + ticks
decreasing_by exact checkedAdvance_lt ‹_›

theorem run_of_due (h : (c.accrue ticks).Due) :
    c.run ticks = (((c.accrue ticks).take.run 0).fst + 1, ((c.accrue ticks).take.run 0).snd) := by
  have hp : 0 < c.period := h.left
  have hl : c.period ≤ c.elapsed + ticks := h.right
  have hp' : 0 < (c.accrue ticks).take.period := hp
  rw [run_eq hp, run_eq hp', Nat.div_eq_sub_div hp hl, Nat.mod_eq_sub_mod hl]
  rfl

theorem run_of_not_due (h : ¬(c.accrue ticks).Due) : c.run ticks = (0, c.accrue ticks) := by
  rw [run, drain, dif_neg h]

-- The code runs once for each edge that there is, if nothing stops it on the way.
theorem eachEdge_eq {σ : Type} {edge : σ → Checked σ} {f : σ → σ} {s : σ} {c : Counter}
    {ticks : Nat}
    (hb : c.elapsed + ticks < 1 <<< 64)
    (hf : ∀ k < (c.run ticks).fst, edge (Nat.repeat f k s) = some (Nat.repeat f (k + 1) s)) :
    eachEdge edge c ticks s = some (Nat.repeat f (c.run ticks).fst s, (c.run ticks).snd) := by
  rw [eachEdge.eq_def, checkedAdvance_eq hb]
  by_cases hd : (c.accrue ticks).Due
  case pos =>
    have ha : c.advance ticks = (true, (c.accrue ticks).take) := if_pos hd
    rw [ha]
    dsimp only
    rw [run_of_due hd] at hf ⊢
    have h0 : edge s = some (f s) := hf 0 (Nat.zero_lt_succ _)
    have hs (k : Nat) : Nat.repeat f (k + 1) s = Nat.repeat f k (f s) := by
      simp only [repeat_eq_iterate, Function.iterate_succ_apply]
    have hl : (c.accrue ticks).take.elapsed < c.elapsed + ticks := hd.take_elapsed_lt
    have hb : (c.accrue ticks).take.elapsed + 0 < 1 <<< 64 := Nat.lt_trans hl hb
    rw [h0, Option.bind_some, hs]
    refine eachEdge_eq hb fun k hk => ?_
    rw [← hs, ← hs]
    exact hf (k + 1) (Nat.succ_lt_succ hk)
  case neg =>
    have ha : c.advance ticks = (false, c.accrue ticks) := if_neg hd
    rw [ha, run_of_not_due hd]
    rfl
termination_by c.elapsed + ticks

-- Code that nothing can stop.
theorem eachEdge_of_total {σ : Type} (f : σ → σ) (hb : c.elapsed + ticks < 1 <<< 64) (s : σ) :
    eachEdge (fun s => some (f s)) c ticks s =
      some (Nat.repeat f (c.run ticks).fst s, (c.run ticks).snd) :=
  eachEdge_eq hb fun _ _ => rfl

-- The edges within some ticks, counted in a signed word of 32 bits.
def countEdges (c : Counter) (ticks : Nat) : Checked (Nat × Counter) :=
  eachEdge (Checked.add 31 · 1) c ticks 0

-- A counter whose periods complete, none of them longer than a second. It collects no more ticks
-- than that either.
structure Live (c : Counter) : Prop where
  period_pos : 0 < c.period
  period_le  : c.period ≤ 1 <<< 22
  elapsed_le : c.elapsed ≤ 1 <<< 22

namespace Live

theorem ofPeriod {period : Nat} (hp : 0 < period) (hl : period ≤ 1 <<< 22) :
    (Counter.ofPeriod period).Live :=
  ⟨hp, hl, Nat.zero_le _⟩

theorem rearm (h : c.Live) {period : Nat} (hp : 0 < period) (hl : period ≤ 1 <<< 22) :
    (c.rearm period).Live :=
  ⟨hp, hl, h.elapsed_le⟩

theorem reset (h : c.Live) : c.reset.Live := ⟨h.period_pos, h.period_le, Nat.zero_le _⟩

theorem run (h : c.Live) (ticks : Nat) : (c.run ticks).snd.Live := by
  rw [run_eq h.period_pos]
  refine ⟨h.period_pos, h.period_le, ?_⟩
  exact Nat.le_trans (Nat.le_of_lt (Nat.mod_lt _ h.period_pos)) h.period_le

theorem fits (h : c.Live) (ht : ticks ≤ 24) : c.elapsed + ticks < 1 <<< 64 := by
  have := h.elapsed_le
  omega

theorem edges_lt (h : c.Live) (ht : ticks ≤ 24) : (c.run ticks).fst < 1 <<< 23 := by
  have hl := h.elapsed_le
  have hd := Nat.div_le_self (c.elapsed + ticks) c.period
  rw [run_eq h.period_pos]
  dsimp only
  omega

theorem countEdges_eq (h : c.Live) (ht : ticks ≤ 24) : c.countEdges ticks = some (c.run ticks) := by
  have hr (n k : Nat) : Nat.repeat (· + 1) n k = k + n := by
    induction n generalizing k with
    | zero => rfl
    | succ n ih => exact congrArg (· + 1) (ih k)
  have he := h.edges_lt ht
  rw [countEdges, eachEdge_eq (h.fits ht) (f := (· + 1))]
  · rw [hr, Nat.zero_add]
  · intro k hk
    rw [hr, hr, Checked.add_eq (by omega)]
    rfl

end Live

end DotMatrix.Counter
