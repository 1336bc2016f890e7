import DotMatrix.Proofs.Cpu.Cost
import DotMatrix.Proofs.Machine.Idle
import DotMatrix.Proofs.Machine.Writes
import DotMatrix.Proofs.Sound.Buffers

namespace DotMatrix

open Video Sound

variable {η : Type} {handed : List (Array Frame)}

-- A host that these buffers were handed to, beside one that forgets them.
def Watched.Handed (handed : List (Array Frame)) (x : Watched η) (_ : Willing) : Prop :=
  x.buffers = handed

section

variable [LineSink η]

theorem Watched.drawAlike_handed :
    DrawAlike (Handed handed : Watched η → Willing → Prop) :=
  fun h n pixels => (buffers_draw _ n pixels).trans h

-- The picture unit hands no buffers over.
theorem Ppu.buffers_advance (p : Ppu) (ticks : Nat) (host : Watched η) :
    (p.advance ticks host).sink.buffers = host.buffers := by
  have h : host.Handed host.buffers {} := rfl
  exact (p.advance_alike Watched.drawAlike_handed h ticks).sink

theorem Board.buffers_advance [SampleSink η] (b : Board) (ticks : Nat) (host : Watched η) :
    (b.advance ticks host).host.buffers = host.buffers ++ (b.apu.advance ticks).fst.toList := by
  have hv := b.ppu.buffers_advance ticks host
  simp only [Board.advance]
  cases (b.apu.advance ticks).fst
  case none      => exact hv.trans (List.append_nil _).symm
  case some full => exact (Watched.buffers_queue _ full).trans (congrArg (· ++ [full]) hv)

end

theorem Board.lasting_buffered {config : Config} {on : Nat} {frames : List Frame} :
    Lasting (fun _ => True) fun b : Board => b.apu.Buffered config on frames handed where
  read h _      := h
  acknowledge h := h
  write {b} h a v _ := by
    simp only [Bus.write, write]
    cases Region.ofAddress a
    case sound r => exact h.writeRegister r v
    case dma     =>
      obtain ⟨_, _, hd⟩ := b.startDma_eq v
      exact hd ▸ h
    all_goals exact h

namespace Machine

-- The ticks that have passed along a trail while the sound was on.
def soundTicks : List (Moment η) → Nat
  | t :: s :: past =>
    soundTicks (s :: past) + if t.machine.core.bus.apu.enabled then t.ticks - s.ticks else 0
  | _ => 0

-- One frame for each period of those ticks, as the channels stood at the end of the step.
def heard (period : Nat) : List (Moment η) → List Frame
  | t :: s :: past =>
    let n := soundTicks (t :: s :: past) / period - soundTicks (s :: past) / period
    heard period (s :: past) ++ List.replicate n t.machine.core.bus.apu.frame
  | _ => []

variable {config : Config} {s t : Moment η} {past : List (Moment η)} {period ticks : Nat}

theorem length_heard (period : Nat) :
    ∀ trail : List (Moment η), (heard period trail).length = soundTicks trail / period
  | []             => (Nat.zero_div period).symm
  | [_]            => (Nat.zero_div period).symm
  | t :: s :: past => by
    have hl : soundTicks (s :: past) / period ≤ soundTicks (t :: s :: past) / period :=
      Nat.div_le_div_right (Nat.le_add_right ..)
    rw [heard, List.length_append, List.length_replicate, length_heard period (s :: past),
      Nat.add_sub_cancel' hl]

theorem soundTicks_cons (h : t.ticks = s.ticks + ticks) :
    soundTicks (t :: s :: past) =
      soundTicks (s :: past) + if t.machine.core.bus.apu.enabled then ticks else 0 := by
  rw [soundTicks, h, Nat.add_sub_cancel_left]

-- Nothing is heard while no time passes.
theorem soundTicks_of_ticks_eq (h : t.ticks = s.ticks) :
    soundTicks (t :: s :: past) = soundTicks (s :: past) := by
  rw [soundTicks_cons (h.trans (Nat.add_zero _).symm), ite_self, Nat.add_zero]

theorem heard_of_ticks_eq (h : t.ticks = s.ticks) :
    heard period (t :: s :: past) = heard period (s :: past) := by
  simp [heard, soundTicks_of_ticks_eq h]

-- The sound unit at the end of a trail.
def Accounted (config : Config) : List (Moment (Watched η)) → Prop
  | s :: past =>
    s.machine.core.bus.apu.Buffered config (soundTicks (s :: past))
      (heard config.samplePeriod (s :: past)) s.host.buffers
  | [] => True

namespace Accounted

variable {cartridge : Cartridge} {host : η} {s t : Moment (Watched η)}
variable {past : List (Moment (Watched η))}

theorem powerOn : Accounted config [(History.powerOn cartridge config (Watched.of host)).now] :=
  Apu.Buffered.postBoot config

-- Without time nothing is made and nothing handed over.
theorem still (ht : t.toTally = s.toTally)
    (h : t.machine.core.bus.apu.Buffered config (soundTicks (s :: past))
      (heard config.samplePeriod (s :: past)) s.host.buffers) :
    Accounted config (t :: s :: past) := by
  have hn : t.ticks = s.ticks := congrArg Tally.ticks ht
  have hh : t.host = s.host := congrArg Tally.host ht
  rw [Accounted, soundTicks_of_ticks_eq hn, heard_of_ticks_eq hn, hh]
  exact h

variable [LineSink η] [SampleSink η]

theorem step (hc : 24 ≤ config.samplePeriod * max 1 config.bufferFrames)
    (h : Accounted config (s :: past)) : Accounted config (s.step :: s :: past) := by
  have hs := Board.lasting_buffered.step h fun _ _ => trivial
  cases hr : s.machine.core.step
  case mk r core =>
    rw [hr] at hs
    cases r
    case error =>
      refine still (Moment.step_tally_of_illegal hr) ?_
      rw [Moment.step, step_of_illegal hr]
      exact hs
    case ok ticks =>
      have ht : s.step.ticks = s.ticks + ticks := by
        rw [Moment.step_tally_of_ok hr, Tally.advance]
      have hh : s.step.host.buffers =
          s.host.buffers ++ (core.bus.apu.advance ticks).fst.toList := by
        rw [Moment.step_tally_of_ok hr]
        exact core.bus.buffers_advance ticks s.host
      have ha : s.step.machine.core.bus.apu = (core.bus.apu.advance ticks).snd := by
        rw [Moment.step, step_of_ok hr, Board.advance]
      simp only [Accounted, heard, soundTicks_cons ht, hh, ha, Apu.advance_enabled]
      exact hs.advance hc (Core.step_cost hr).right

theorem next (hc : 24 ≤ config.samplePeriod * max 1 config.bufferFrames)
    (h : Accounted config (s :: past)) (hn : s.Next t) : Accounted config (t :: s :: past) := by
  cases hn
  case step => exact h.step hc
  case turn =>
    refine still s.turn_tally ?_
    rw [s.turn_core]
    exact h
  case hold => exact still rfl h

theorem of_trail (hc : 24 ≤ config.samplePeriod * max 1 config.bufferFrames)
    {trail : List (Moment (Watched η))}
    (h : History.Trail (History.powerOn cartridge config (Watched.of host)).now trail) :
    Accounted config trail := by
  induction h
  case start      => exact powerOn
  case next hn hi => exact hi.next hc hn

end Accounted

variable [LineSink η] [SampleSink η]

-- Whatever the program does, the master switch included: as long as a buffer takes the frames of the
-- longest step, the host is handed all that is heard, in whole buffers, but for what still waits.
theorem all_sound_is_buffered (cartridge : Cartridge) (config : Config) (host : η) (cs : List Call)
    (hc : 24 ≤ config.samplePeriod * max 1 config.bufferFrames) :
    ∀ s past, s :: past <:+
      ((History.powerOn cartridge config (Watched.of host)).calls cs).moments →
      let trail   := s :: past
      let waiting := s.machine.core.bus.apu.buffer.toList
      s.host.buffers.flatMap Array.toList ++ waiting = heard config.samplePeriod trail ∧
      (heard config.samplePeriod trail).length = soundTicks trail / config.samplePeriod ∧
      (∀ full ∈ s.host.buffers, (interleave full.toList).length = config.bufferLength) ∧
      2 ∣ (interleave waiting).length ∧
      (interleave waiting).length < config.bufferLength := by
  intro s past hs trail waiting
  have h := Accounted.of_trail hc (History.trail_of_suffix hs)
  refine ⟨h.frames, length_heard .., fun full hf => ?_, ?_, ?_⟩
  · exact (length_interleave _).trans (h.full full hf)
  · exact length_interleave _ ▸ Nat.dvd_mul_right ..
  · exact length_interleave _ ▸ h.waiting

theorem all_sound_is_buffered_lullaby :
    let config : Config := {}
    let h := (History.powerOn .lullaby config (Watched.of Willing.mk)).calls [.step, .runFrame]
    24 ≤ config.samplePeriod * max 1 config.bufferFrames ∧
    ∀ s past, s :: past <:+ h.moments →
      let trail   := s :: past
      let waiting := s.machine.core.bus.apu.buffer.toList
      s.host.buffers.flatMap Array.toList ++ waiting = heard config.samplePeriod trail ∧
      (heard config.samplePeriod trail).length = soundTicks trail / config.samplePeriod ∧
      (∀ full ∈ s.host.buffers, (interleave full.toList).length = config.bufferLength) ∧
      2 ∣ (interleave waiting).length ∧
      (interleave waiting).length < config.bufferLength :=
  have hc : 24 ≤ Config.samplePeriod {} * max 1 (Config.bufferFrames {}) := by decide
  ⟨hc, all_sound_is_buffered _ _ _ _ hc⟩

end Machine
end DotMatrix
