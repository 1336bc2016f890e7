import DotMatrix.Proofs.Checked.Channels
import DotMatrix.Sound.Mixer

namespace DotMatrix

open Sound

namespace Sound

theorem Config.samplePeriod_le (c : Config) : c.samplePeriod ≤ 1 <<< 22 := by
  refine Nat.max_le.mpr ⟨by decide, ?_⟩
  exact Nat.div_le_self ..

theorem Config.live_samplePeriod (c : Config) : (Counter.ofPeriod c.samplePeriod).Live :=
  .ofPeriod (Nat.le_max_left ..) c.samplePeriod_le

end Sound

namespace Apu

-- An empty buffer with room for so many samples.
def checkedBuffer (length : Nat) : Checked (Array Frame) :=
  if length ≤ Config.maxBufferLength then some #[] else none

def checkedPostBoot (config : Config) : Checked Apu := do
  let length ← Checked.mul 64 (max 1 config.bufferFrames) 2
  let buffer ← checkedBuffer length
  return { config, buffer }

def checkedWritePowered (s : Apu) (r : Sound.Register) (v : UInt8) : Checked Apu :=
  match r with
  | .nr10 => do let ch1 ← s.ch1.checkedSetSweep v; return { s with ch1 }
  | .nr11 => do let pulse ← s.ch1.pulse.checkedSetDuty v; return { s with ch1.pulse := pulse }
  | .nr12 => do let pulse ← s.ch1.pulse.checkedSetVolume v; return { s with ch1.pulse := pulse }
  | .nr13 => do let pulse ← s.ch1.pulse.checkedSetLow v; return { s with ch1.pulse := pulse }
  | .nr14 => do let ch1 ← s.ch1.checkedSetControl v; return { s with ch1 }
  | .nr21 => do let ch2 ← s.ch2.checkedSetDuty v; return { s with ch2 }
  | .nr22 => do let ch2 ← s.ch2.checkedSetVolume v; return { s with ch2 }
  | .nr23 => do let ch2 ← s.ch2.checkedSetLow v; return { s with ch2 }
  | .nr24 => do let ch2 ← s.ch2.checkedSetControl v; return { s with ch2 }
  | .nr31 => do let ch3 ← s.ch3.checkedSetLength v; return { s with ch3 }
  | .nr33 => do let ch3 ← s.ch3.checkedSetLow v; return { s with ch3 }
  | .nr34 => do let ch3 ← s.ch3.checkedSetControl v; return { s with ch3 }
  | .nr41 => do let ch4 ← s.ch4.checkedSetLength v; return { s with ch4 }
  | .nr42 => do let ch4 ← s.ch4.checkedSetVolume v; return { s with ch4 }
  | .nr43 => do let ch4 ← s.ch4.checkedSetClock v; return { s with ch4 }
  | .nr44 => do let ch4 ← s.ch4.checkedSetControl v; return { s with ch4 }
  | .nr30 | .nr32 | .nr50 | .nr51 | .nr52 | .wave _ => some (s.writePowered r v)

def checkedWriteRegister (s : Apu) (r : Sound.Register) (v : UInt8) : Checked Apu :=
  match r with
  | .nr52 | .wave _ => some (s.writeRegister r v)
  | r               => if s.enabled then s.checkedWritePowered r v else some s

def checkedFrame (s : Apu) : Checked Frame := do
  let ch3 ← if s.ch3.enabled then s.ch3.checkedAmplitude else pure 0.0
  let x := { s.samples with ch3 }
  return {
    left  := x.mix s.nr51 4 * masterVolume (bitField s.nr50 4 3)
    right := x.mix s.nr51 0 * masterVolume (bitField s.nr50 0 3) }

def checkedClockChannels (s : Apu) (ticks : Nat) : Checked Apu := do
  let ch1 ← s.ch1.checkedClock ticks
  let ch2 ← s.ch2.checkedClock ticks
  let ch3 ← s.ch3.checkedClock ticks
  let ch4 ← s.ch4.checkedClock ticks
  return { s with ch1, ch2, ch3, ch4 }

-- A buffer holds two samples for each frame.
def Pending.checkedPush (length : Nat) (f : Frame) (b : Pending) : Checked Pending := do
  let buffer := b.buffer.push f
  if Config.maxBufferLength < 2 * buffer.size then none
  else if length ≤ 2 * buffer.size then
    let next ← checkedBuffer length
    return { full := some buffer, buffer := next }
  else
    return { b with buffer }

-- The same frame again and again, as its channels have run already.
def checkedPushes (s : Apu) : Nat → Pending → Checked Pending
  | 0, b        => some b
  | edges + 1, b => do
    let b ← s.checkedPushes edges b
    let frame ← s.checkedFrame
    b.checkedPush s.config.bufferLength frame

def checkedAdvance (s : Apu) (ticks : Nat) : Checked (Option (Array Frame) × Apu) :=
  if s.enabled then do
    let s ← s.checkedClockChannels ticks
    let (edges, sampleTicks) ← s.sampleTicks.countEdges ticks
    let pending ← s.checkedPushes edges { buffer := s.buffer }
    return (pending.full, { s with sampleTicks, buffer := pending.buffer })
  else
    some (none, s)

-- The buffer is never left full.
structure Orderly (s : Apu) : Prop where
  ch1         : s.ch1.Orderly
  ch2         : s.ch2.Orderly
  ch3         : s.ch3.Orderly
  ch4         : s.ch4.Orderly
  sampleTicks : s.sampleTicks.Live
  fits        : s.config.Fits
  buffer_lt   : 2 * s.buffer.size < s.config.bufferLength

variable {s : Apu} {config : Config} {ticks : Nat}

theorem checkedBuffer_eq (h : config.Fits) : checkedBuffer config.bufferLength = some #[] :=
  if_pos h

theorem checkedPostBoot_eq (h : config.Fits) : checkedPostBoot config = some (postBoot config) := by
  have hl : max 1 config.bufferFrames * 2 < 1 <<< 64 := Nat.lt_of_le_of_lt h (by decide)
  rw [checkedPostBoot, Checked.mul_eq hl]
  simp only [Option.bind_eq_bind, Option.bind_some]
  rw [← Config.bufferLength, checkedBuffer_eq h]
  rfl

-- There is no unit with buffers that do not fit.
theorem fits_of_checkedPostBoot (h : checkedPostBoot config = some s) : config.Fits := by
  have ⟨length, hm, h⟩ := Option.bind_eq_some_iff.mp h
  have ⟨buffer, hb, _⟩ := Option.bind_eq_some_iff.mp h
  rw [Checked.eq_of_fit hm] at hb
  exact (Option.ite_none_right_eq_some.mp hb).left

theorem orderly_postBoot (h : config.Fits) : (postBoot config).Orderly where
  ch1         := SweptPulse.orderly_initial
  ch2         := Pulse.orderly_initial
  ch3         := Wave.orderly_powerOff {}
  ch4         := Noise.orderly_initial
  sampleTicks := config.live_samplePeriod
  fits        := h
  buffer_lt   := Nat.mul_pos (Nat.lt_of_lt_of_le Nat.one_pos (Nat.le_max_left ..)) (by decide)

theorem checkedWritePowered_eq (s : Apu) (r : Sound.Register) (v : UInt8) :
    s.checkedWritePowered r v = some (s.writePowered r v) := by
  cases r
  all_goals simp only [checkedWritePowered, SweptPulse.checkedSetSweep_eq,
    SweptPulse.checkedSetControl_eq, Pulse.checkedSetDuty_eq, Pulse.checkedSetVolume_eq,
    Pulse.checkedSetLow_eq, Pulse.checkedSetControl_eq, Wave.checkedSetLength_eq,
    Wave.checkedSetLow_eq, Wave.checkedSetControl_eq, Noise.checkedSetLength_eq,
    Noise.checkedSetVolume_eq, Noise.checkedSetClock_eq, Noise.checkedSetControl_eq,
    Option.bind_eq_bind, Option.bind_some]
  all_goals rfl

theorem checkedWriteRegister_eq (s : Apu) (r : Sound.Register) (v : UInt8) :
    s.checkedWriteRegister r v = some (s.writeRegister r v) := by
  cases r
  case nr52 | wave => rfl
  all_goals
    simp only [checkedWriteRegister, checkedWritePowered_eq, writeRegister]
    split <;> rfl

theorem checkedFrame_eq (s : Apu) : s.checkedFrame = some s.frame := by
  simp only [checkedFrame, Wave.checkedAmplitude_eq, frame, samples]
  split <;> rfl

theorem Orderly.writePowered (h : s.Orderly) (r : Sound.Register) (v : UInt8) :
    (s.writePowered r v).Orderly := by
  cases r
  case nr10 => exact { h with ch1 := h.ch1.setSweep v }
  case nr11 => exact { h with ch1 := ⟨h.ch1.pulse.setDuty v, h.ch1.sweep⟩ }
  case nr12 => exact { h with ch1 := ⟨h.ch1.pulse.setVolume v, h.ch1.sweep⟩ }
  case nr13 => exact { h with ch1 := ⟨h.ch1.pulse.setLow v, h.ch1.sweep⟩ }
  case nr14 => exact { h with ch1 := h.ch1.setControl v }
  case nr21 => exact { h with ch2 := h.ch2.setDuty v }
  case nr22 => exact { h with ch2 := h.ch2.setVolume v }
  case nr23 => exact { h with ch2 := h.ch2.setLow v }
  case nr24 => exact { h with ch2 := h.ch2.setControl v }
  case nr30 => exact { h with ch3 := h.ch3.setConverter v }
  case nr31 => exact { h with ch3 := h.ch3.setLength v }
  case nr32 => exact { h with ch3 := ⟨h.ch3.ticks, h.ch3.length⟩ }
  case nr33 => exact { h with ch3 := h.ch3.setLow v }
  case nr34 => exact { h with ch3 := h.ch3.setControl v }
  case nr41 => exact { h with ch4 := h.ch4.setLength v }
  case nr42 => exact { h with ch4 := h.ch4.setVolume v }
  case nr43 => exact { h with ch4 := h.ch4.setClock v }
  case nr44 => exact { h with ch4 := h.ch4.setControl v }
  case nr50 | nr51 => exact { h with }
  case nr52 | wave => exact h

theorem Orderly.setPower (h : s.Orderly) (on : Bool) : (s.setPower on).Orderly := by
  simp only [Apu.setPower]
  split
  case isFalse => exact { h with }
  case isTrue =>
    exact { h with
      ch1 := SweptPulse.orderly_initial
      ch2 := Pulse.orderly_initial
      ch3 := Wave.orderly_powerOff _
      ch4 := Noise.orderly_initial }

theorem Orderly.writeRegister (h : s.Orderly) (r : Sound.Register) (v : UInt8) :
    (s.writeRegister r v).Orderly := by
  cases r
  case nr52 => exact h.setPower _
  case wave => exact { h with ch3 := ⟨h.ch3.ticks, h.ch3.length⟩ }
  all_goals
    simp only [Apu.writeRegister]
    split
    case isTrue  => exact h.writePowered _ v
    case isFalse => exact h

theorem Orderly.checkedClockChannels_eq (h : s.Orderly) (ht : ticks ≤ 24) :
    s.checkedClockChannels ticks = some (s.clockChannels ticks) := by
  rw [checkedClockChannels, h.ch1.checkedClock_eq ht, h.ch2.checkedClock_eq ht,
    h.ch3.checkedClock_eq ht, h.ch4.checkedClock_eq ht]
  rfl

theorem Orderly.clockChannels (h : s.Orderly) (ht : ticks ≤ 24) :
    (s.clockChannels ticks).Orderly :=
  { h with
    ch1 := h.ch1.clock ht
    ch2 := h.ch2.clock ht
    ch3 := h.ch3.clock ht
    ch4 := h.ch4.clock ht }

theorem Pending.push_lt {f : Frame} {b : Pending} (h : 2 * b.buffer.size < config.bufferLength) :
    2 * (b.push config.bufferLength f).buffer.size < config.bufferLength := by
  simp only [Pending.push]
  split
  case isTrue     => exact Nat.zero_lt_of_lt h
  case isFalse hn => exact Nat.lt_of_not_le hn

-- A buffer that is not full has room for one more frame, as its length is even.
theorem Pending.checkedPush_eq {f : Frame} {b : Pending} (hc : config.Fits)
    (h : 2 * b.buffer.size < config.bufferLength) :
    b.checkedPush config.bufferLength f = some (b.push config.bufferLength f) := by
  have hl : config.bufferLength = max 1 config.bufferFrames * 2 := rfl
  have hm : config.bufferLength ≤ Config.maxBufferLength := hc
  have hr : ¬Config.maxBufferLength < 2 * (b.buffer.push f).size := by
    rw [Array.size_push]
    omega
  simp only [checkedPush, push, if_neg hr, checkedBuffer_eq hc]
  split <;> rfl

theorem Orderly.pushes_lt (h : s.Orderly) (f : Frame) (edges : Nat) :
    2 * (Nat.repeat (Pending.push s.config.bufferLength f) edges
      { buffer := s.buffer }).buffer.size < s.config.bufferLength := by
  induction edges with
  | zero         => exact h.buffer_lt
  | succ edges ih => exact Pending.push_lt ih

theorem Orderly.checkedPushes_eq (h : s.Orderly) (edges : Nat) :
    s.checkedPushes edges { buffer := s.buffer } =
      some (Nat.repeat (Pending.push s.config.bufferLength s.frame) edges
        { buffer := s.buffer }) := by
  induction edges with
  | zero          => rfl
  | succ edges ih =>
    rw [checkedPushes, ih, checkedFrame_eq]
    exact Pending.checkedPush_eq h.fits (h.pushes_lt _ edges)

theorem Orderly.checkedAdvance_eq (h : s.Orderly) (ht : ticks ≤ 24) :
    s.checkedAdvance ticks = some (s.advance ticks) := by
  have hc := h.clockChannels ht
  simp only [checkedAdvance, advance]
  split
  case isTrue =>
    rw [h.checkedClockChannels_eq ht]
    simp only [Option.bind_eq_bind, Option.bind_some]
    rw [hc.sampleTicks.countEdges_eq ht]
    simp only [Option.bind_some]
    rw [hc.checkedPushes_eq]
    rfl
  case isFalse => rfl

theorem Orderly.advance (h : s.Orderly) (ht : ticks ≤ 24) : (s.advance ticks).snd.Orderly := by
  have hc := h.clockChannels ht
  simp only [Apu.advance]
  split
  case isTrue =>
    exact { hc with
      sampleTicks := hc.sampleTicks.run ticks
      buffer_lt   := hc.pushes_lt _ _ }
  case isFalse => exact h

end Apu
end DotMatrix
