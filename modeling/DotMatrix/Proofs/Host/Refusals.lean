import DotMatrix.Proofs.Host.Alike
import DotMatrix.Proofs.Machine.Idle

namespace DotMatrix

open Video Sound

namespace Watched

variable {η θ : Type}

-- Two hosts have been asked for the same things.
def SameCalls (x : Watched η) (y : Watched θ) : Prop := x.calls = y.calls

theorem drawAlike_sameCalls [LineSink η] [LineSink θ] :
    DrawAlike (SameCalls : Watched η → Watched θ → Prop) :=
  fun h n pixels => congrArg (· ++ [HostCall.line n pixels]) h

theorem queueAlike_sameCalls [SampleSink η] [SampleSink θ] :
    QueueAlike (SameCalls : Watched η → Watched θ → Prop) :=
  fun h frames => congrArg (· ++ [HostCall.buffer frames]) h

end Watched

variable {η θ : Type} [LineSink η] [SampleSink η] [LineSink θ] [SampleSink θ]

namespace Machine

-- The frame is run again after each error, and comes to an end.
inductive Finishes : Machine → η → Run η → Prop
  | done {m : Machine} {host : η} :
    (m.runFrame host).error = none → Finishes m host (m.runFrame host)
  | again {m : Machine} {host : η} {r : Run η} :
    (m.runFrame host).error ≠ none →
    Finishes (m.runFrame host).machine (m.runFrame host).host r → Finishes m host r

variable {m : Machine}

-- A step within the frame, whether it ends the call or not, only brings its end nearer.
theorem Finishes.of_step {host : η} {r : Run η} (h : m.elapsed < Clock.ticksPerFrame)
    (hf : (m.step host).machine.Finishes (m.step host).host r) : m.Finishes host r := by
  by_cases he : (m.step host).error = none
  case pos =>
    have hr := runFrame_of_step_ok h he
    cases hf
    case done hn      => exact hr ▸ .done (hr ▸ hn)
    case again hn hf' => exact .again (hr ▸ hn) (hr ▸ hf')
  case neg =>
    have hr := runFrame_of_step_error h he
    exact .again (hr ▸ he) (hr ▸ hf)

-- A host that has been asked for the same things as one that lets the frame pass.
theorem finishes_alike {R : η → θ → Prop} (hd : DrawAlike R) (hq : QueueAlike R) {x : η} {y : θ}
    (hR : R x y) (hy : (m.runFrame y).error = none) :
    ∃ r, m.Finishes x r ∧ r.machine = (m.runFrame y).machine ∧ R r.host (m.runFrame y).host := by
  induction m, y using runFrame.induct generalizing x
  case case1 m y hl next he hi =>
    have he := Option.isNone_iff_eq_none.mp he
    have hs := m.step_alike hd hq hR
    have hr := runFrame_of_step_ok hl he
    obtain ⟨r, hf, hm, hh⟩ := hi hs.host (hr ▸ hy)
    exact ⟨r, .of_step hl (hs.machine ▸ hf), hr ▸ hm, hr ▸ hh⟩
  case case2 m y hl next he =>
    have he : (m.step y).error ≠ none := by simpa using he
    exact absurd (runFrame_of_step_error hl he ▸ hy) he
  case case3 m y hl =>
    have hx : m.runFrame x = _ := runFrame_of_le (Nat.le_of_not_lt hl)
    have hy' : m.runFrame y = _ := runFrame_of_le (Nat.le_of_not_lt hl)
    exact ⟨_, .done (by rw [hx]), by rw [hx, hy'], by rw [hx, hy']; exact hR⟩

theorem Finishes.deterministic {host : η} {r₁ r₂ : Run η} (h₁ : m.Finishes host r₁)
    (h₂ : m.Finishes host r₂) : r₁ = r₂ := by
  induction h₁
  case done he =>
    cases h₂
    case done        => rfl
    case again hn _  => exact absurd he hn
  case again hn _ hi =>
    cases h₂
    case done he    => exact absurd he hn
    case again _ h₂ => exact hi h₂

-- Whatever its host refuses, a machine that meets no illegal instruction comes to the end of its
-- frame, in the state and after the calls that a willing host would have seen.
theorem finishes_despite_refusals (m : Machine) (host : η)
    (hi : ∀ e, (m.runFrame Watched.willing).error ≠ some (.illegal e)) :
    (m.runFrame Watched.willing).error = none ∧
    (∃ r, m.Finishes (Watched.of host) r) ∧
    ∀ r, m.Finishes (Watched.of host) r →
      r.machine = (m.runFrame Watched.willing).machine ∧
      r.host.calls = (m.runFrame Watched.willing).host.calls := by
  have he := Watched.neverRefuses_willing.runFrame_error hi
  have hc : (Watched.of host).SameCalls Watched.willing := rfl
  have ⟨r, hf, hr⟩ := finishes_alike Watched.drawAlike_sameCalls Watched.queueAlike_sameCalls hc he
  refine ⟨he, ⟨r, hf⟩, fun r' hf' => ?_⟩
  exact hf.deterministic hf' ▸ hr

-- A host that refuses everything.
structure Sullen

instance : LineSink Sullen := ⟨fun host n _ => (some s!"no room for line {n}", host)⟩

instance : SampleSink Sullen := ⟨fun host _ => (some "no room for a buffer", host)⟩

theorem lullaby_finishes_despite_sullen :
    let m := powerOn .lullaby {}
    (∀ e, (m.runFrame Watched.willing).error ≠ some (.illegal e)) ∧
    (m.runFrame Watched.willing).error = none ∧
    (∃ r, m.Finishes (Watched.of Sullen.mk) r) ∧
    ∀ r, m.Finishes (Watched.of Sullen.mk) r →
      r.machine = (m.runFrame Watched.willing).machine ∧
      r.host.calls = (m.runFrame Watched.willing).host.calls :=
  have hi := idle_lullaby.runFrame_error
  ⟨hi, finishes_despite_refusals _ Sullen.mk hi⟩

end Machine
end DotMatrix
