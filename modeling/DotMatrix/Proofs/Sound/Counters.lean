import DotMatrix.Proofs.Sound.Length
import DotMatrix.Proofs.Sound.ShiftRegister
import DotMatrix.Proofs.Sound.Sweep

namespace DotMatrix

theorem Counter.period_run (c : Counter) (ticks : Nat) : (c.run ticks).snd.period = c.period := by
  rw [c.run_eq_div_mod]

namespace Sound

-- The period that a pace asks for, in units of some ticks. A pace of zero asks for no counter.
def pacePeriod? (unit pace : Nat) : Option Nat := if pace = 0 then none else some (pace * unit)

theorem map_period_paced (unit pace : Nat) :
    (if pace = 0 then none else some (Counter.ofPeriod (pace * unit))).map Counter.period =
      pacePeriod? unit pace := by
  rw [pacePeriod?]
  split <;> rfl

-- The envelope has the counter that its register asks for, and a volume of four bits.
structure Envelope.Geared (e : Envelope) (b : UInt8) : Prop where
  ticks     : e.ticks.map Counter.period = pacePeriod? step (bitField b 0 3)
  volume_le : e.volume ≤ loudest

namespace Envelope

variable {e : Envelope} {b : UInt8}

theorem geared_initial : Geared {} 0 := ⟨rfl, Nat.zero_le _⟩

theorem geared_ofRegister (b : UInt8) : (ofRegister b).Geared b :=
  ⟨map_period_paced .., Nat.le_of_lt_succ (bitField_lt b 4 4)⟩

theorem Geared.clock (h : e.Geared b) (ticks : Nat) : (e.clock ticks).Geared b := by
  obtain ⟨initial, volume, increase, _ | c⟩ := e
  case none => exact h
  case some =>
    refine ⟨?_, repeat_move_le _ h.volume_le _⟩
    rw [← h.ticks]
    exact congrArg some (c.period_run ticks)

end Envelope

-- The sweep has the counter that its register asks for.
def Sweep.Geared (s : Sweep) : Prop :=
  s.ticks.map Counter.period = pacePeriod? step (bitField s.nr10 4 3)

namespace Sweep

variable {s : Sweep}

theorem geared_initial : Geared {} := rfl

theorem geared_setRegister (s : Sweep) (v : UInt8) : (s.setRegister v).Geared := by
  have hp : ∀ period, period = bitField v 4 3 * step → period ≠ 0 →
      some period = pacePeriod? step (bitField v 4 3) := by
    intro period hp hn
    have hz : bitField v 4 3 ≠ 0 := fun hz => hn (by rw [hp, hz, Nat.zero_mul])
    rw [pacePeriod?, if_neg hz, hp]
  simp only [setRegister]
  split
  case h_1 h =>
    have hz : bitField v 4 3 = 0 := (Nat.mul_eq_zero.mp h).resolve_right (by decide)
    exact (if_pos hz).symm
  case h_2 hn => exact hp _ rfl hn
  case h_3 hn => exact hp _ rfl hn

theorem geared_trigger (s : Sweep) : s.trigger.Geared := by
  have hz : s.period = 0 ↔ bitField s.nr10 4 3 = 0 :=
    Nat.mul_eq_zero.trans (or_iff_left (by decide))
  simp only [Geared, trigger, hz]
  exact map_period_paced ..

theorem Geared.clock (h : s.Geared) (ticks frequency : Nat) :
    (s.clock ticks frequency).snd.Geared := by
  obtain ⟨nr10, _ | c⟩ := s
  case none => exact h
  case some => exact (congrArg some (c.period_run ticks)).trans h

end Sweep

-- A channel that sounds has the period that its registers ask for, and so has its envelope.
structure Pulse.Geared (p : Pulse) : Prop where
  ticks    : p.enabled → p.ticks.period = p.period
  envelope : p.envelope.Geared p.nrx2

namespace Pulse

variable {p : Pulse}

theorem geared_initial : Geared {} := ⟨nofun, Envelope.geared_initial⟩

theorem geared_rearm (h : p.envelope.Geared p.nrx2) : p.rearm.Geared := ⟨fun _ => rfl, h⟩

theorem geared_trigger (p : Pulse) : p.trigger.Geared :=
  ⟨fun _ => rfl, Envelope.geared_ofRegister p.nrx2⟩

theorem Geared.setDuty (h : p.Geared) (v : UInt8) : (p.setDuty v).Geared := ⟨h.ticks, h.envelope⟩

theorem Geared.setVolume (h : p.Geared) (v : UInt8) : (p.setVolume v).Geared :=
  ⟨h.ticks, Envelope.geared_ofRegister v⟩

theorem Geared.setLow (h : p.Geared) (v : UInt8) : (p.setLow v).Geared := geared_rearm h.envelope

theorem Geared.setControl (h : p.Geared) (v : UInt8) : (p.setControl v).Geared := by
  simp only [Pulse.setControl]
  split
  case isTrue  => exact geared_trigger _
  case isFalse => exact geared_rearm h.envelope

theorem Geared.act (h : p.Geared) (a : Sweep.Action) : (p.act a).Geared := by
  cases a
  case nothing      => exact h
  case disable      => exact ⟨nofun, h.envelope⟩
  case setFrequency => exact geared_rearm h.envelope

theorem Geared.clock (h : p.Geared) (ticks : Nat) : (p.clock ticks).Geared := by
  simp only [Pulse.clock]
  split
  case isFalse => exact h
  case isTrue he =>
    exact ⟨fun _ => (p.ticks.period_run ticks).trans (h.ticks he), h.envelope.clock ticks⟩

end Pulse

structure SweptPulse.Geared (s : SweptPulse) : Prop where
  pulse : s.pulse.Geared
  sweep : s.sweep.Geared

namespace SweptPulse

variable {s : SweptPulse}

theorem geared_initial : Geared {} := ⟨Pulse.geared_initial, Sweep.geared_initial⟩

theorem Geared.setSweep (h : s.Geared) (v : UInt8) : (s.setSweep v).Geared :=
  ⟨h.pulse, s.sweep.geared_setRegister v⟩

theorem Geared.setControl (h : s.Geared) (v : UInt8) : (s.setControl v).Geared := by
  refine ⟨h.pulse.setControl v, ?_⟩
  simp only [SweptPulse.setControl]
  split
  case isTrue  => exact s.sweep.geared_trigger
  case isFalse => exact h.sweep

-- A frequency that the sweep sets reaches the counter as well.
theorem Geared.clock (h : s.Geared) (ticks : Nat) : (s.clock ticks).Geared := by
  by_cases he : s.pulse.enabled
  case neg =>
    rw [clock_of_silent he]
    exact h
  case pos =>
    have hs := h.sweep.clock ticks s.pulse.frequency
    rw [Sweep.clock_eq] at hs
    rw [clock_of_enabled he]
    exact ⟨(h.pulse.clock ticks).act _, hs⟩

end SweptPulse

-- The wave channel sounds only with its converter on.
structure Wave.Geared (w : Wave) : Prop where
  ticks     : w.enabled → w.ticks.period = w.period
  converter : w.enabled → w.converterOn

namespace Wave

variable {w : Wave}

theorem geared_powerOff (w : Wave) : w.powerOff.Geared := ⟨nofun, nofun⟩

theorem geared_trigger (w : Wave) : w.trigger.Geared := ⟨fun _ => rfl, id⟩

theorem geared_rearm (h : w.enabled → w.converterOn) : w.rearm.Geared := ⟨fun _ => rfl, h⟩

theorem Geared.setConverter (h : w.Geared) (v : UInt8) : (w.setConverter v).Geared where
  ticks he     := h.ticks (Bool.and_eq_true_iff.mp he).left
  converter he := (Bool.and_eq_true_iff.mp he).right

theorem Geared.setLow (h : w.Geared) (v : UInt8) : (w.setLow v).Geared := geared_rearm h.converter

theorem Geared.setControl (h : w.Geared) (v : UInt8) : (w.setControl v).Geared := by
  simp only [Wave.setControl]
  split
  case isTrue  => exact geared_trigger _
  case isFalse => exact geared_rearm h.converter

theorem Geared.clock (h : w.Geared) (ticks : Nat) : (w.clock ticks).Geared := by
  simp only [Wave.clock]
  split
  case isFalse => exact h
  case isTrue he =>
    exact ⟨fun _ => (w.ticks.period_run ticks).trans (h.ticks he), fun _ => h.converter he⟩

end Wave

-- The shift register has fifteen bits.
structure Noise.Geared (n : Noise) : Prop where
  ticks    : n.enabled → n.ticks.period = n.period
  envelope : n.envelope.Geared n.nr42
  lfsr_le  : n.lfsr.bits ≤ 0x7fff

namespace Noise

variable {n : Noise}

theorem geared_initial : Geared {} := ⟨nofun, Envelope.geared_initial, UInt16.le_refl _⟩

theorem geared_trigger (n : Noise) : n.trigger.Geared :=
  ⟨fun _ => rfl, Envelope.geared_ofRegister n.nr42, UInt16.le_refl _⟩

theorem Geared.setLength (h : n.Geared) (v : UInt8) : (n.setLength v).Geared :=
  ⟨h.ticks, h.envelope, h.lfsr_le⟩

theorem Geared.setVolume (h : n.Geared) (v : UInt8) : (n.setVolume v).Geared :=
  ⟨h.ticks, Envelope.geared_ofRegister v, h.lfsr_le⟩

theorem Geared.setClock (h : n.Geared) (v : UInt8) : (n.setClock v).Geared :=
  ⟨fun _ => rfl, h.envelope, h.lfsr_le⟩

theorem Geared.setControl (h : n.Geared) (v : UInt8) : (n.setControl v).Geared := by
  simp only [Noise.setControl]
  split
  case isTrue  => exact geared_trigger _
  case isFalse => exact ⟨h.ticks, h.envelope, h.lfsr_le⟩

theorem Geared.clock (h : n.Geared) (ticks : Nat) : (n.clock ticks).Geared := by
  have hl : (n.clock ticks).lfsr.bits ≤ 0x7fff := by
    rw [lfsr_clock]
    exact Lfsr.walk_le h.lfsr_le _
  by_cases he : n.enabled
  case neg =>
    rw [Noise.clock, if_neg he]
    exact h
  case pos =>
    rw [Noise.clock, if_pos he] at hl ⊢
    exact ⟨fun _ => (n.ticks.period_run ticks).trans (h.ticks he), h.envelope.clock ticks, hl⟩

theorem period_eq (n : Noise) :
    n.period = max 8 (16 * bitField n.nr43 0 3) * 2 ^ bitField n.nr43 4 4 := by
  rw [period, Nat.shiftLeft_eq]
  cases bitField n.nr43 0 3 with
  | zero      => rfl
  | succ code => rw [Nat.max_eq_right (by omega)]

end Noise

-- The register that holds the volume of a channel and its envelope.
def Channel.volume? : Channel → Option Register
  | sweptPulse => some .nr12
  | pulse      => some .nr22
  | wave       => none
  | noise      => some .nr42

theorem bitField_or_top (b : UInt8) : bitField (b ||| 0x80) 4 3 = bitField b 4 3 := by
  revert b
  decide +kernel

end Sound

open Sound

namespace Apu

section Channels

variable (s : Apu)

-- The counter that steps a channel through its wave form.
def stepCounter : Channel → Counter
  | .sweptPulse => s.ch1.pulse.ticks
  | .pulse      => s.ch2.ticks
  | .wave       => s.ch3.ticks
  | .noise      => s.ch4.ticks

-- The ticks per step that the registers of a channel ask for.
def stepPeriod : Channel → Nat
  | .sweptPulse => (2048 - s.ch1.pulse.frequency) * 4
  | .pulse      => (2048 - s.ch2.frequency) * 4
  | .wave       => (2048 - s.ch3.frequency) * 2
  | .noise      => max 8 (16 * bitField s.ch4.nr43 0 3) * 2 ^ bitField s.ch4.nr43 4 4

def envelope? : Channel → Option Envelope
  | .sweptPulse => some s.ch1.pulse.envelope
  | .pulse      => some s.ch2.envelope
  | .wave       => none
  | .noise      => some s.ch4.envelope

theorem two_le_stepPeriod (c : Channel) : 2 ≤ s.stepPeriod c := by
  have hf (low control : UInt8) (unit : Nat) (hu : 2 ≤ unit) :
      2 ≤ (2048 - frequency low control) * unit :=
    Nat.le_trans hu (Nat.le_mul_of_pos_left unit (Nat.sub_pos_of_lt (frequency_lt low control)))
  cases c
  case sweptPulse => exact hf _ _ 4 (by decide)
  case pulse      => exact hf _ _ 4 (by decide)
  case wave       => exact hf _ _ 2 (by decide)
  case noise      =>
    have hd : 2 ≤ max 8 (16 * bitField s.ch4.nr43 0 3) :=
      Nat.le_trans (by decide) (Nat.le_max_left ..)
    exact Nat.le_trans hd (Nat.le_mul_of_pos_right _ (Nat.two_pow_pos _))

end Channels

structure Geared (s : Apu) : Prop where
  ch1 : s.ch1.Geared
  ch2 : s.ch2.Geared
  ch3 : s.ch3.Geared
  ch4 : s.ch4.Geared

namespace Geared

variable {s : Apu}

theorem postBoot (config : Config) : (Apu.postBoot config).Geared where
  ch1 := SweptPulse.geared_initial
  ch2 := Pulse.geared_initial
  ch3 := Wave.geared_powerOff {}
  ch4 := Noise.geared_initial

theorem setPower (h : s.Geared) (on : Bool) : (s.setPower on).Geared := by
  simp only [Apu.setPower]
  split
  case isFalse => exact { h with }
  case isTrue  =>
    exact {
      ch1 := SweptPulse.geared_initial
      ch2 := Pulse.geared_initial
      ch3 := s.ch3.geared_powerOff
      ch4 := Noise.geared_initial }

theorem writePowered (h : s.Geared) (r : Sound.Register) (v : UInt8) :
    (s.writePowered r v).Geared := by
  cases r
  case nr10 => exact { h with ch1 := h.ch1.setSweep v }
  case nr11 => exact { h with ch1 := ⟨h.ch1.pulse.setDuty v, h.ch1.sweep⟩ }
  case nr12 => exact { h with ch1 := ⟨h.ch1.pulse.setVolume v, h.ch1.sweep⟩ }
  case nr13 => exact { h with ch1 := ⟨h.ch1.pulse.setLow v, h.ch1.sweep⟩ }
  case nr14 => exact { h with ch1 := h.ch1.setControl v }
  case nr21 => exact { h with ch2 := h.ch2.setDuty v }
  case nr22 => exact { h with ch2 := h.ch2.setVolume v }
  case nr23 => exact { h with ch2 := h.ch2.setLow v }
  case nr24 => exact { h with ch2 := h.ch2.setControl v }
  case nr30 => exact { h with ch3 := h.ch3.setConverter v }
  case nr31 | nr32 => exact { h with ch3 := ⟨h.ch3.ticks, h.ch3.converter⟩ }
  case nr33 => exact { h with ch3 := h.ch3.setLow v }
  case nr34 => exact { h with ch3 := h.ch3.setControl v }
  case nr41 => exact { h with ch4 := h.ch4.setLength v }
  case nr42 => exact { h with ch4 := h.ch4.setVolume v }
  case nr43 => exact { h with ch4 := h.ch4.setClock v }
  case nr44 => exact { h with ch4 := h.ch4.setControl v }
  case nr50 | nr51 => exact { h with }
  case nr52 | wave => exact h

theorem write (h : s.Geared) (low v : UInt8) : (s.write low v).Geared := by
  obtain ⟨-, hw⟩ | ⟨i, -, hw⟩ | ⟨q, -, -, -, hw⟩ | ⟨-, hw⟩ := s.write_cases low v
  · exact hw ▸ h.setPower _
  · rw [hw]
    exact { h with ch3 := ⟨h.ch3.ticks, h.ch3.converter⟩ }
  · rw [hw]
    split
    · exact h.writePowered q v
    · exact h
  · rw [hw]
    exact h

theorem advance (h : s.Geared) (ticks : Nat) : (s.advance ticks).snd.Geared := by
  simp only [Apu.advance]
  split
  case isFalse => exact h
  case isTrue =>
    exact {
      ch1 := h.ch1.clock ticks
      ch2 := h.ch2.clock ticks
      ch3 := h.ch3.clock ticks
      ch4 := h.ch4.clock ticks }

theorem run (config : Config) (es : List Event) : ((Apu.postBoot config).run es).Geared := by
  induction es using List.reverseRecOn with
  | nil => exact postBoot config
  | append_singleton es e ih =>
    rw [Apu.run, List.foldl_concat]
    cases e
    case write low v   => exact ih.write low v
    case advance ticks => exact ih.advance ticks

theorem stepCounter (h : s.Geared) {c : Channel} (hc : (s.lengthState c).sounds) :
    (s.stepCounter c).period = s.stepPeriod c := by
  cases c
  case sweptPulse => exact h.ch1.pulse.ticks hc
  case pulse      => exact h.ch2.ticks hc
  case wave       => exact h.ch3.ticks hc
  case noise      => exact (h.ch4.ticks hc).trans s.ch4.period_eq

theorem envelope (h : s.Geared) {c : Channel} {r : Sound.Register} {e : Envelope}
    (hr : c.volume? = some r) (he : s.envelope? c = some e) : e.Geared (s.read r.low) := by
  rw [s.read_low]
  cases c
  case sweptPulse => cases hr; cases he; exact h.ch1.pulse.envelope
  case pulse      => cases hr; cases he; exact h.ch2.envelope
  case wave       => cases hr
  case noise      => cases hr; cases he; exact h.ch4.envelope

end Geared

-- After any run the counters are those that the registers ask for, as far as they matter: the ones
-- that step through the wave forms, as long as their channels sound.
theorem counters_follow_registers (config : Config) (es : List Event) :
    let s := (postBoot config).run es
    (∀ c : Channel, testBit (s.read 0x26) c.statusBit →
      (s.stepCounter c).period = s.stepPeriod c ∧ 2 ≤ (s.stepCounter c).period) ∧
    s.ch1.sweep.ticks.map Counter.period = pacePeriod? 32768 (bitField (s.read 0x10) 4 3) ∧
    (∀ c r e, Channel.volume? c = some r → s.envelope? c = some e →
      e.ticks.map Counter.period = pacePeriod? 65536 (bitField (s.read r.low) 0 3) ∧
      e.volume ≤ 15) ∧
    s.ch1.pulse.dutyStep.toNat ≤ 7 ∧ s.ch2.dutyStep.toNat ≤ 7 ∧ s.ch3.position.toNat ≤ 31 ∧
    s.ch4.lfsr.bits ≤ 0x7fff ∧ (s.ch3.enabled → s.ch3.converterOn) := by
  intro s
  have h : s.Geared := .run config es
  refine ⟨fun c hc => ?_, ?_, fun c r e hr he => ?_, ?_, ?_, ?_, h.ch4.lfsr_le, h.ch3.converter⟩
  · have hp := h.stepCounter (testBit_read_master (c := c) ▸ hc)
    exact ⟨hp, hp ▸ s.two_le_stepPeriod c⟩
  · have hr : s.read 0x10 = s.ch1.sweep.nr10 ||| 0x80 := rfl
    rw [hr, bitField_or_top]
    exact h.ch1.sweep
  · have hg := h.envelope hr he
    exact ⟨hg.ticks, hg.volume_le⟩
  · exact Nat.le_of_lt_succ s.ch1.pulse.dutyStep.isLt
  · exact Nat.le_of_lt_succ s.ch2.dutyStep.isLt
  · exact Nat.le_of_lt_succ s.ch3.position.isLt

end Apu
end DotMatrix
