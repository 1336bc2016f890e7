import DotMatrix.Clock
import DotMatrix.Machine.Basic

namespace DotMatrix

open Video Sound

namespace Machine

variable {η : Type} [LineSink η] [SampleSink η]

-- A step without an error takes some time.
theorem step_elapsed_lt {m : Machine} {host : η} (h : (m.step host).error = none) :
    m.elapsed < (m.step host).machine.elapsed := by
  simp only [step] at h ⊢
  split at h
  · cases h
  · rename_i hs
    exact Nat.lt_add_of_pos_right (Core.step_cost_pos hs)

-- Runs the current frame until its ticks are spent. The step that crosses its end is carried out in
-- full, and what it took too much is carried over into the next frame. An error stops the frame
-- where it is, and the next run goes on with it.
@[specialize]
def runFrame (m : Machine) (host : η) : Run η :=
  if m.elapsed < Clock.ticksPerFrame then
    let next := m.step host
    if next.error.isNone then next.machine.runFrame next.host else next
  else
    { machine := { m with elapsed := m.elapsed - Clock.ticksPerFrame }, host }
termination_by Clock.ticksPerFrame - m.elapsed
decreasing_by
  rename_i he
  have := step_elapsed_lt (Option.isNone_iff_eq_none.mp he)
  omega

variable {m : Machine} {host : η}

theorem runFrame_of_le (h : Clock.ticksPerFrame ≤ m.elapsed) :
    m.runFrame host = {
      machine := { m with elapsed := m.elapsed - Clock.ticksPerFrame }
      host } := by
  rw [runFrame, if_neg (Nat.not_lt.mpr h)]

theorem runFrame_of_step_ok (h : m.elapsed < Clock.ticksPerFrame)
    (he : (m.step host).error = none) :
    m.runFrame host = (m.step host).machine.runFrame (m.step host).host := by
  rw [runFrame, if_pos h]
  simp only [he, Option.isNone_none, if_true]

theorem runFrame_of_step_error (h : m.elapsed < Clock.ticksPerFrame)
    (he : (m.step host).error ≠ none) : m.runFrame host = m.step host := by
  have he' : ¬(m.step host).error.isNone := by simpa using he
  rw [runFrame, if_pos h]
  exact if_neg he'

-- What the steps of a frame and its end leave as it is, the frame does.
theorem runFrame_of_kept {P : Machine → Prop}
    (step : ∀ {m : Machine}, P m → m.elapsed < Clock.ticksPerFrame →
      ∀ host : η, P (m.step host).machine)
    (turn : ∀ {m : Machine}, P m → Clock.ticksPerFrame ≤ m.elapsed →
      P { m with elapsed := m.elapsed - Clock.ticksPerFrame })
    (h : P m) (host : η) : P (m.runFrame host).machine := by
  induction m, host using runFrame.induct
  case case1 m host hl next he hi =>
    rw [runFrame_of_step_ok hl (Option.isNone_iff_eq_none.mp he)]
    exact hi (step h hl host)
  case case2 m host hl next he =>
    rw [runFrame_of_step_error hl (by simpa using he)]
    exact step h hl host
  case case3 m host hl =>
    rw [runFrame_of_le (Nat.le_of_not_lt hl)]
    exact turn h (Nat.le_of_not_lt hl)

end Machine
end DotMatrix
