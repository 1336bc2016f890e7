import DotMatrix.Proofs.Sound.Sampling

namespace DotMatrix

namespace Sound

-- The samples of some frames, the left one of each before the right one.
def interleave (fs : List Frame) : List Float32 :=
  fs.flatMap fun f => [f.left, f.right]

theorem length_interleave (fs : List Frame) : (interleave fs).length = 2 * fs.length := by
  induction fs with
  | nil => rfl
  | cons f fs ih =>
    have hc : interleave (f :: fs) = f.left :: f.right :: interleave fs := rfl
    rw [hc, List.length_cons, List.length_cons, ih, List.length_cons, Nat.mul_succ]

end Sound

open Sound

namespace Apu

variable {config : Config} {b : Pending} {f : Frame} {fs : List Frame}

namespace Pending

-- The frames of the full buffer, and those that wait after them.
def frames (b : Pending) : List Frame := b.full.toList.flatMap Array.toList ++ b.buffer.toList

-- A buffer is handed over when it has its length, and not before.
structure Sized (config : Config) (b : Pending) : Prop where
  full   : ∀ x ∈ b.full, 2 * x.size = config.bufferLength
  buffer : 2 * b.buffer.size < config.bufferLength

-- Two full buffers would be more frames than there are.
theorem Sized.full_eq_none (h : b.Sized config) (hl : b.frames.length + 1 < config.bufferLength)
    (hf : config.bufferLength ≤ 2 * (b.buffer.size + 1)) : b.full = none := by
  cases hx : b.full with
  | none => rfl
  | some x =>
    have hs := h.full x hx
    have hn : b.frames.length = x.size + b.buffer.size := by simp [frames, hx]
    omega

theorem Sized.push (h : b.Sized config) (hl : b.frames.length + 1 < config.bufferLength)
    (f : Frame) :
    (b.push config.bufferLength f).Sized config ∧
      (b.push config.bufferLength f).frames = b.frames ++ [f] := by
  have hb : config.bufferLength = max 1 config.bufferFrames * 2 := rfl
  have hs := h.buffer
  simp only [Pending.push, Array.size_push]
  split
  case isTrue hf =>
    have hn := h.full_eq_none hl hf
    refine ⟨⟨fun x hx => ?_, ?_⟩, ?_⟩
    · obtain rfl := Option.some.inj hx
      rw [Array.size_push]
      omega
    · rw [Array.size_empty]
      omega
    · simp [frames, hn]
  case isFalse hf =>
    refine ⟨⟨h.full, ?_⟩, ?_⟩
    · rw [Array.size_push]
      omega
    · simp [frames]

theorem Sized.pushAll (h : b.Sized config)
    (hl : b.frames.length + fs.length < config.bufferLength) :
    (b.pushAll config.bufferLength fs).Sized config ∧
      (b.pushAll config.bufferLength fs).frames = b.frames ++ fs := by
  induction fs generalizing b with
  | nil => exact ⟨h, (List.append_nil _).symm⟩
  | cons f fs ih =>
    rw [List.length_cons] at hl
    obtain ⟨hp, hf⟩ := h.push (by omega) f
    have hl' : (b.push config.bufferLength f).frames.length + fs.length < config.bufferLength := by
      rw [hf, List.length_append, List.length_singleton]
      omega
    obtain ⟨ha, hfs⟩ := ih hp hl'
    exact ⟨ha, hfs.trans (by rw [hf, List.append_assoc, List.singleton_append])⟩

end Pending

variable {s : Apu} {ticks : Nat}

-- Frames that make up less than two buffers, together with those that wait.
theorem advance_frames (hb : 2 * s.buffer.size < s.config.bufferLength)
    (hl : s.buffer.size + (s.generated ticks).length < s.config.bufferLength) :
    let r := s.advance ticks
    (∀ x ∈ r.fst, 2 * x.size = s.config.bufferLength) ∧
    2 * r.snd.buffer.size < s.config.bufferLength ∧
    r.fst.toList.flatMap Array.toList ++ r.snd.buffer.toList =
      s.buffer.toList ++ s.generated ticks := by
  intro r
  have hs : Pending.Sized s.config { buffer := s.buffer } := ⟨nofun, hb⟩
  have hn : (Pending.frames { buffer := s.buffer }).length = s.buffer.size := by
    simp [Pending.frames]
  obtain ⟨hp, hf⟩ := hs.pushAll (hn ▸ hl)
  obtain ⟨hfull, hbuffer⟩ := s.pushes_generated ticks
  rw [hfull, hbuffer]
  exact ⟨hp.full, hp.buffer, hf⟩

theorem advance_config (s : Apu) (ticks : Nat) : (s.advance ticks).snd.config = s.config := by
  simp only [advance]
  split <;> rfl

theorem advance_enabled (s : Apu) (ticks : Nat) : (s.advance ticks).snd.enabled = s.enabled := by
  simp only [advance]
  split
  case isTrue h  => exact h.symm ▸ rfl
  case isFalse h => rfl

-- The clock of the samples stands still while the unit is off.
theorem advance_sampleTicks (s : Apu) (ticks : Nat) :
    (s.advance ticks).snd.sampleTicks =
      if s.enabled then (s.sampleTicks.run ticks).snd else s.sampleTicks := by
  simp only [advance]
  split <;> rfl

-- The frames that were made, as they look afterwards.
theorem generated_eq_replicate (s : Apu) (ticks : Nat) :
    s.generated ticks =
      List.replicate (if s.enabled then (s.sampleTicks.run ticks).fst else 0)
        (s.advance ticks).snd.frame := by
  cases he : s.enabled
  case true =>
    simp only [generated, advance, he, if_true]
    rfl
  case false => simp [generated, he]

-- Under a configuration the unit has been on for some ticks. The frames of that time have filled the
-- buffers that were handed over, and those that are left wait.
structure Buffered (config : Config) (ticks : Nat) (frames : List Frame)
    (handed : List (Array Frame)) (s : Apu) : Prop where
  configured  : s.config = config
  sampleTicks : s.sampleTicks =
    { elapsed := ticks % config.samplePeriod, period := config.samplePeriod }
  full        : ∀ x ∈ handed, 2 * x.size = config.bufferLength
  waiting     : 2 * s.buffer.size < config.bufferLength
  frames      : handed.flatMap Array.toList ++ s.buffer.toList = frames

namespace Buffered

variable {config : Config} {on : Nat} {frames : List Frame} {handed : List (Array Frame)}

theorem postBoot (config : Config) : (Apu.postBoot config).Buffered config 0 [] [] where
  configured  := rfl
  sampleTicks := by rw [Nat.zero_mod]; rfl
  full        := nofun
  waiting     := Nat.mul_pos (Nat.le_max_left ..) Nat.two_pos
  frames      := rfl

theorem congr {t : Apu} (h : s.Buffered config on frames handed) (hc : t.config = s.config)
    (hs : t.sampleTicks = s.sampleTicks) (hb : t.buffer = s.buffer) :
    t.Buffered config on frames handed where
  configured  := hc.trans h.configured
  sampleTicks := hs.trans h.sampleTicks
  full        := h.full
  waiting     := hb ▸ h.waiting
  frames      := hb ▸ h.frames

-- No register reaches the buffer, not even the master switch.
theorem writeRegister (h : s.Buffered config on frames handed) (r : Sound.Register) (v : UInt8) :
    (s.writeRegister r v).Buffered config on frames handed := by
  cases r
  case nr52 =>
    simp only [Apu.writeRegister, setPower]
    split <;> exact h.congr rfl rfl rfl
  case wave => exact h.congr rfl rfl rfl
  all_goals
    simp only [Apu.writeRegister]
    split <;> exact h.congr rfl rfl rfl

-- A full buffer takes the frames of all ticks that a step may take.
theorem edges_le (hc : 24 ≤ config.samplePeriod * max 1 config.bufferFrames) (ht : ticks ≤ 24) :
    (on + ticks) / config.samplePeriod - on / config.samplePeriod ≤ max 1 config.bufferFrames := by
  have hl := Nat.div_le_div_right (c := config.samplePeriod)
    (Nat.add_le_add_left (Nat.le_trans ht hc) on)
  rw [Nat.add_mul_div_left _ _ config.samplePeriod_pos] at hl
  omega

-- The frames of some ticks, counted from all ticks so far.
theorem generated_frames (h : s.Buffered config on frames handed) (ticks : Nat) :
    let now := on + if s.enabled then ticks else 0
    let n   := now / config.samplePeriod - on / config.samplePeriod
    (s.advance ticks).snd.sampleTicks =
      { elapsed := now % config.samplePeriod, period := config.samplePeriod } ∧
    s.generated ticks = List.replicate n (s.advance ticks).snd.frame := by
  intro now n
  rw [s.advance_sampleTicks ticks, s.generated_eq_replicate ticks]
  cases he : s.enabled
  case true =>
    have hr := Counter.run_of_elapsed_mod config.samplePeriod_pos h.sampleTicks ticks
    simp only [now, n, he, if_true, hr, and_self]
  case false => simp [now, n, he, h.sampleTicks]

-- As many buffers were handed over as the frames have filled.
theorem length_handed (h : s.Buffered config on frames handed) :
    handed.length = frames.length / max 1 config.bufferFrames := by
  have hb : config.bufferLength = max 1 config.bufferFrames * 2 := rfl
  have hs : ∀ x ∈ handed, x.toList.length = max 1 config.bufferFrames := by
    intro x hx
    have := h.full x hx
    rw [Array.length_toList]
    omega
  have hw : s.buffer.toList.length < max 1 config.bufferFrames := by
    have := h.waiting
    rw [Array.length_toList]
    omega
  have hp : 0 < max 1 config.bufferFrames := Nat.le_max_left ..
  rw [← h.frames, List.length_append, List.length_flatMap, List.map_congr_left hs,
    List.map_const', List.sum_replicate_nat, Nat.mul_comm, Nat.mul_add_div hp,
    Nat.div_eq_of_lt hw, Nat.add_zero]

-- No more than one buffer fills within a step.
theorem advance (h : s.Buffered config on frames handed)
    (hc : 24 ≤ config.samplePeriod * max 1 config.bufferFrames) (ht : ticks ≤ 24) :
    let r   := s.advance ticks
    let now := on + if s.enabled then ticks else 0
    let n   := now / config.samplePeriod - on / config.samplePeriod
    r.snd.Buffered config now (frames ++ List.replicate n r.snd.frame)
      (handed ++ r.fst.toList) := by
  intro r now n
  obtain ⟨hs, hg⟩ := h.generated_frames ticks
  have hn : (s.generated ticks).length ≤ max 1 config.bufferFrames := by
    rw [hg, List.length_replicate]
    exact edges_le hc (by split <;> omega)
  have hw : 2 * s.buffer.size < max 1 config.bufferFrames * 2 := h.waiting
  have hl : s.buffer.size + (s.generated ticks).length < s.config.bufferLength := by
    rw [h.configured, Config.bufferLength]
    omega
  obtain ⟨hfull, hwaiting, hf⟩ := advance_frames (h.configured.symm ▸ h.waiting) hl
  rw [h.configured] at hfull hwaiting
  constructor
  case configured  => exact (s.advance_config ticks).trans h.configured
  case sampleTicks => exact hs
  case full        =>
    intro x hx
    cases List.mem_append.mp hx
    case inl hx => exact h.full x hx
    case inr hx => exact hfull x (Option.mem_toList.mp hx)
  case waiting => exact hwaiting
  case frames  =>
    rw [List.flatMap_append, List.append_assoc, hf, hg, ← List.append_assoc, h.frames]

end Buffered
end Apu
end DotMatrix
