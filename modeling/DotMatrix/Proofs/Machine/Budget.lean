import DotMatrix.Proofs.Checked.Machine
import DotMatrix.Proofs.Host.Refusals
import DotMatrix.Proofs.Machine.Picture
import Mathlib.Algebra.Ring.Nat

namespace DotMatrix

open Video Sound

theorem Core.step_cost_bounds {β : Type} [Bus β] {s t : Core β} {ticks : Nat}
    (h : s.step = (.ok ticks, t)) : 4 ∣ ticks ∧ 4 ≤ ticks ∧ ticks ≤ 24 := by
  have ⟨hd, hl⟩ := step_cost h
  exact ⟨hd, Nat.le_of_dvd (step_cost_pos h) hd, hl⟩

namespace Machine

section

variable {η : Type} [LineSink η] [SampleSink η] {m : Machine} {host : η} {costs : List Nat}
  {r : Run η}

-- What the steps of one call cost, and where they lead. The step that meets an illegal instruction
-- costs nothing, but the one whose line or buffer is refused counts in full.
inductive Spends : Machine → η → List Nat → Run η → Prop
  | spent {m : Machine} {host : η} (passed : Clock.ticksPerFrame ≤ m.elapsed) :
    Spends m host [] {
      machine := { m with elapsed := m.elapsed - Clock.ticksPerFrame }
      host }
  | illegal {m : Machine} {host : η} {e : IllegalInstruction} {core : Core Board}
    (within : m.elapsed < Clock.ticksPerFrame) (illegal : m.core.step = (.error e, core)) :
    Spends m host [] (m.step host)
  | refused {m : Machine} {host : η} {ticks : Nat} {core : Core Board}
    (within : m.elapsed < Clock.ticksPerFrame) (cost : m.core.step = (.ok ticks, core))
    (error : (m.step host).error ≠ none) : Spends m host [ticks] (m.step host)
  | step {m : Machine} {host : η} {ticks : Nat} {core : Core Board} {costs : List Nat} {r : Run η}
    (within : m.elapsed < Clock.ticksPerFrame) (cost : m.core.step = (.ok ticks, core))
    (error : (m.step host).error = none)
    (rest : Spends (m.step host).machine (m.step host).host costs r) :
    Spends m host (ticks :: costs) r

theorem step_elapsed {ticks : Nat} {core : Core Board} (h : m.core.step = (.ok ticks, core))
    (host : η) : (m.step host).machine.elapsed = m.elapsed + ticks := by
  rw [step_of_ok h]

theorem four_dvd_step (h : 4 ∣ m.elapsed) (host : η) : 4 ∣ (m.step host).machine.elapsed := by
  cases hc : m.core.step
  case mk result core =>
    cases result
    case error    => simpa only [step_of_illegal hc] using h
    case ok ticks => exact step_elapsed hc host ▸ Nat.dvd_add h (Core.step_cost_bounds hc).left

theorem exists_spends (m : Machine) (host : η) :
    ∃ costs, m.Spends host costs (m.runFrame host) := by
  induction m, host using runFrame.induct
  case case1 m host hl next he hi =>
    have he : (m.step host).error = none := Option.isNone_iff_eq_none.mp he
    rw [runFrame_of_step_ok hl he]
    cases hc : m.core.step
    case mk result core =>
      cases result
      case error => simp [step_of_illegal hc] at he
      case ok ticks =>
        obtain ⟨costs, hs⟩ := hi
        exact ⟨ticks :: costs, .step hl hc he hs⟩
  case case2 m host hl next he =>
    have he : (m.step host).error ≠ none := by simpa using he
    rw [runFrame_of_step_error hl he]
    cases hc : m.core.step
    case mk result core =>
      cases result
      case error    => exact ⟨[], .illegal hl hc⟩
      case ok ticks => exact ⟨[ticks], .refused hl hc he⟩
  case case3 m host hl =>
    have hl := Nat.le_of_not_lt hl
    rw [runFrame_of_le hl]
    exact ⟨[], .spent hl⟩

namespace Spends

theorem four_dvd (h : m.Spends host costs r) (hm : 4 ∣ m.elapsed) : 4 ∣ r.machine.elapsed := by
  induction h
  case spent              => exact Nat.dvd_sub hm (by decide)
  case illegal | refused  => exact four_dvd_step hm _
  case step hi            => exact hi (four_dvd_step hm _)

-- Each step takes at least four ticks off what is left of the frame.
theorem length_lt (h : m.Spends host costs r) :
    4 * costs.length < Clock.ticksPerFrame - m.elapsed + 4 := by
  induction h
  case spent | illegal => exact Nat.succ_pos _
  case refused hl hc _ => simp only [List.length_singleton]; omega
  case step hl hc _ _ hi =>
    have ⟨_, ht, _⟩ := Core.step_cost_bounds hc
    rw [step_elapsed hc] at hi
    rw [List.length_cons]
    omega

-- The costs come off the budget, and only the end of the frame renews it.
theorem sum (h : m.Spends host costs r) :
    costs.sum + m.elapsed =
      r.machine.elapsed + if r.error = none then Clock.ticksPerFrame else 0 := by
  induction h
  case spent hl => simp only [List.sum_nil, if_true]; omega
  case illegal hc => simp [step_of_illegal hc]
  case refused hc he => simp [he, step_elapsed hc, Nat.add_comm]
  case step hc _ _ hi =>
    rw [List.sum_cons, ← hi, step_elapsed hc]
    omega

end Spends
end

-- The frame is run on until a call meets no error. Each call may bring another host, and the
-- buttons may change in between. The costs are those of all steps.
inductive Completes : Machine → List Nat → Machine → Prop
  | done {m : Machine} {η : Type} [LineSink η] [SampleSink η] {host : η} {costs : List Nat}
    {r : Run η} (run : m.Spends host costs r) (ok : r.error = none) : Completes m costs r.machine
  | failed {m n : Machine} {η : Type} [LineSink η] [SampleSink η] {host : η}
    {costs rest : List Nat} {r : Run η} (run : m.Spends host costs r) (error : r.error ≠ none)
    (later : Completes r.machine rest n) : Completes m (costs ++ rest) n
  | hold {m n : Machine} {costs : List Nat} (directions actions : UInt8)
    (later : Completes (m.hold directions actions) costs n) : Completes m costs n

theorem Completes.sum {m n : Machine} {costs : List Nat} (h : m.Completes costs n) :
    costs.sum + m.elapsed = n.elapsed + Clock.ticksPerFrame := by
  induction h
  case done hs hn => simpa only [hn, if_true] using hs.sum
  case failed hs hn _ hi =>
    have hs := hs.sum
    rw [if_neg hn] at hs
    rw [List.sum_append]
    omega
  case hold hi => exact hi

variable {m : Machine}

theorem Reachable.four_dvd (h : m.Reachable) : 4 ∣ m.elapsed := by
  induction h
  case powerOn hm =>
    have ⟨_, _, hm⟩ := Option.bind_eq_some_iff.mp hm
    exact Option.some.inj hm ▸ Nat.dvd_zero 4
  case hold hm | write hm        => exact hm
  case step host hm              => exact four_dvd_step hm host
  case runFrame m _ _ _ _ host hm =>
    have ⟨_, hs⟩ := m.exists_spends host
    exact hs.four_dvd hm

-- A step that is only started within the frame crosses its end by less than the longest step.
theorem Reachable.elapsed_le (h : m.Reachable) : m.elapsed ≤ Clock.ticksPerFrame + 20 := by
  have hd := h.four_dvd
  have hf : 4 ∣ Clock.ticksPerFrame := by decide
  have hl := h.orderly.elapsed
  omega

-- Whatever the program does and whatever is refused, each call makes only so many steps, and
-- between the ends of two frames all steps together take the ticks of one, up to what is carried
-- over.
theorem Reachable.frames_add_up (h : m.Reachable) :
    (∀ {β : Type} [Bus β] {s t : Core β} {ticks : Nat},
      s.step = (.ok ticks, t) → 4 ∣ ticks ∧ 4 ≤ ticks ∧ ticks ≤ 24) ∧
    4 ∣ m.elapsed ∧
    m.elapsed ≤ Clock.ticksPerFrame + 20 ∧
    (∀ {η : Type} [LineSink η] [SampleSink η] (host : η),
      (∃ costs, m.Spends host costs (m.runFrame host) ∧
        4 * costs.length ≤ Clock.ticksPerFrame) ∧
      ((m.runFrame host).error = none → (m.runFrame host).machine.elapsed ≤ 20)) ∧
    ∀ costs n, m.Completes costs n → costs.sum + m.elapsed = Clock.ticksPerFrame + n.elapsed := by
  refine ⟨Core.step_cost_bounds, h.four_dvd, h.elapsed_le, ?call, ?frame⟩
  case call =>
    intro η _ _ host
    have ⟨costs, hs⟩ := m.exists_spends host
    have hl := hs.length_lt
    have hf : 4 ∣ Clock.ticksPerFrame := by decide
    exact ⟨⟨costs, hs, by omega⟩, fun he => (runFrame_elapsed h.four_dvd h.elapsed_le he).right⟩
  case frame =>
    intro costs n hc
    rw [hc.sum, Nat.add_comm]

theorem frames_add_up_lullaby :
    let m := ((powerOn .lullaby {}).runFrame Sullen.mk).machine.hold 1 0
    m.Reachable ∧
    (∀ {β : Type} [Bus β] {s t : Core β} {ticks : Nat},
      s.step = (.ok ticks, t) → 4 ∣ ticks ∧ 4 ≤ ticks ∧ ticks ≤ 24) ∧
    4 ∣ m.elapsed ∧
    m.elapsed ≤ Clock.ticksPerFrame + 20 ∧
    (∀ {η : Type} [LineSink η] [SampleSink η] (host : η),
      (∃ costs, m.Spends host costs (m.runFrame host) ∧
        4 * costs.length ≤ Clock.ticksPerFrame) ∧
      ((m.runFrame host).error = none → (m.runFrame host).machine.elapsed ≤ 20)) ∧
    ∀ costs n, m.Completes costs n →
      costs.sum + m.elapsed = Clock.ticksPerFrame + n.elapsed := by
  intro m
  have hf : Config.Fits {} := by decide
  have h : m.Reachable := ((Reachable.powerOn _ _ (checkedPowerOn_eq hf)).runFrame _).hold ..
  exact ⟨h, h.frames_add_up⟩

end Machine
end DotMatrix
