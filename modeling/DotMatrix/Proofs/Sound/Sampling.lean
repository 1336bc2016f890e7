import DotMatrix.Proofs.Counter
import DotMatrix.Sound.Mixer

namespace DotMatrix

open Sound

theorem Sound.Config.samplePeriod_pos (c : Config) : 0 < c.samplePeriod :=
  Nat.le_max_left ..

namespace Apu

variable {s : Apu}

-- The frames of the next ticks.
def generated (s : Apu) (ticks : Nat) : List Frame :=
  if s.enabled then List.replicate (s.sampleTicks.run ticks).fst (s.clockChannels ticks).frame
  else []

-- Adds frames in their order.
def Pending.pushAll (length : Nat) (fs : List Frame) (b : Pending) : Pending :=
  fs.foldl (fun b f => b.push length f) b

theorem Pending.pushAll_replicate (length n : Nat) (f : Frame) (b : Pending) :
    b.pushAll length (List.replicate n f) = Nat.repeat (push length f) n b := by
  induction n
  case zero => rfl
  case succ n hi =>
    rw [pushAll] at hi ⊢
    rw [List.replicate_succ', List.foldl_append, hi]
    rfl

-- The unit pushes these frames, and no others, within some ticks: they account for the buffer that
-- it hands over and for the one that it keeps.
def Pushes (s : Apu) (ticks : Nat) (fs : List Frame) : Prop :=
  let pending := Pending.pushAll s.config.bufferLength fs { buffer := s.buffer }
  (s.advance ticks).fst = pending.full ∧ (s.advance ticks).snd.buffer = pending.buffer

theorem pushes_generated (s : Apu) (ticks : Nat) : s.Pushes ticks (s.generated ticks) := by
  rw [Pushes]
  cases he : s.enabled
  case true =>
    simp only [generated, advance, he, if_true, Pending.pushAll_replicate]
    exact ⟨rfl, rfl⟩
  case false =>
    simp only [generated, advance, he, Bool.false_eq_true, if_false]
    exact ⟨rfl, rfl⟩

-- The unit is on, and the counter of its samples has run for some ticks.
structure Sampled (s : Apu) (period ticks : Nat) : Prop where
  on          : s.enabled
  sampleTicks : s.sampleTicks = { elapsed := ticks % period, period }

namespace Sampled

variable {period ticks : Nat}

theorem postBoot {config : Config} : (Apu.postBoot config).Sampled config.samplePeriod 0 where
  on          := rfl
  sampleTicks := by rw [Nat.zero_mod]; rfl

theorem advance (h : s.Sampled period ticks) (hp : 0 < period) (n : Nat) :
    (s.advance n).snd.Sampled period (ticks + n) := by
  have hr := Counter.run_of_elapsed_mod hp h.sampleTicks n
  simp only [Apu.advance, h.on, if_true]
  exact ⟨h.on, congrArg Prod.snd hr⟩

-- Only the master switch reaches the counter.
theorem writeRegister (h : s.Sampled period ticks) {r : Sound.Register} {v : UInt8}
    (hr : r = .nr52 → testBit v 7) : (s.writeRegister r v).Sampled period ticks := by
  cases r
  case nr52 =>
    simp only [Apu.writeRegister, setPower, hr rfl, Bool.not_true, Bool.and_false,
      Bool.false_eq_true, if_false]
    exact ⟨rfl, h.sampleTicks⟩
  case wave => exact ⟨h.on, h.sampleTicks⟩
  all_goals
    simp only [Apu.writeRegister, h.on, if_true]
    exact ⟨h.on, h.sampleTicks⟩

end Sampled
end Apu
end DotMatrix
