import DotMatrix.Proofs.Machine.Idle
import DotMatrix.Proofs.Machine.Writes

namespace DotMatrix.Machine

open Video Sound

variable {η : Type} [LineSink η] [SampleSink η] {Q : η → Nat → Prop} {period : Nat}

theorem invariant_frames : Moment.Invariant fun s : Moment η =>
    s.ticks = s.machine.elapsed + Clock.ticksPerFrame * s.frames where
  hold h _ _ := h
  turn {s} h hl := by
    have ht : s.turn.ticks = s.ticks := congrArg Tally.ticks s.turn_tally
    have he : s.turn.machine.elapsed = s.machine.elapsed - Clock.ticksPerFrame := rfl
    have hf : Clock.ticksPerFrame * s.turn.frames = _ := Nat.mul_succ _ s.frames
    omega
  step {s} h := by
    have hf : s.step.frames = s.frames := rfl
    cases hc : s.machine.core.step
    case mk r core =>
      cases r
      case ok ticks =>
        have ht : s.step.ticks = s.ticks + ticks := by
          rw [Moment.step_tally_of_ok hc, Tally.advance]
        have he : s.step.machine.elapsed = s.machine.elapsed + ticks := by
          rw [Moment.step, step_of_ok hc]
        rw [hf, ht, he, h, Nat.add_right_comm]
      case error =>
        have ht : s.step.ticks = s.ticks := by rw [Moment.step_tally_of_illegal hc]
        have he : s.step.machine.elapsed = s.machine.elapsed := by
          rw [Moment.step, step_of_illegal hc]
        rw [hf, ht, he, h]

-- The picture unit is where the ticks put it, and the host knows of the lines so far.
def OnRaster (Q : η → Nat → Prop) (t : Tally η) (b : Board) : Prop :=
  ∃ lines, b.ppu.OnSchedule t.ticks lines t.vblanks ∧ Q t.host lines

theorem invariant_raster (hc : Counts Q)
    (hq : ∀ {host lines}, Q host lines → ∀ buffer, Q (SampleSink.queue host buffer).snd lines) :
    Tally.Invariant KeepsScreen (OnRaster Q) where
  lasting t := {
    read        := fun ⟨lines, h, hl⟩ a => ⟨lines, Board.lasting_onSchedule.read h a, hl⟩
    write       := fun ⟨lines, h, hl⟩ _ _ hw => ⟨lines, Board.lasting_onSchedule.write h hw, hl⟩
    acknowledge := fun ⟨lines, h, hl⟩ => ⟨lines, Board.lasting_onSchedule.acknowledge h, hl⟩ }
  hold h _ _ := h
  advance {t b} h ticks := by
    have ⟨_, h, hl⟩ := h
    have ⟨lines, h, hl⟩ := h.advance hc hl ticks
    refine ⟨lines, h, ?_⟩
    simp only [Tally.advance, Board.advance]
    cases (b.apu.advance ticks).fst
    case none => exact hl
    case some => exact hq hl _

end DotMatrix.Machine
