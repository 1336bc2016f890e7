import DotMatrix.Proofs.Sound.Phase

namespace DotMatrix

namespace Sound

-- What the volume that a register starts has come to after some ticks.
def volumeAfter (b : UInt8) (ticks : Nat) : Nat :=
  let initial := bitField b 4 4
  let pace := bitField b 0 3
  if pace = 0 then initial
  else if testBit b 3 then min 15 (initial + ticks / (65536 * pace))
  else initial - ticks / (65536 * pace)

namespace Envelope

variable {b : UInt8} {volume : Nat}

theorem repeat_move_up (h : volume ≤ 15) (n : Nat) :
    Nat.repeat (move true) n volume = min 15 (volume + n) := by
  induction n with
  | zero      => exact (Nat.min_eq_right h).symm
  | succ n ih =>
    rw [Nat.repeat, ih]
    simp only [move, loudest, if_true]
    omega

theorem repeat_move_down (volume n : Nat) : Nat.repeat (move false) n volume = volume - n := by
  induction n with
  | zero      => rfl
  | succ n ih =>
    rw [Nat.repeat, ih]
    simp only [move, Bool.false_eq_true, if_false]
    omega

theorem clock_add (e : Envelope) (m n : Nat) : e.clock (m + n) = (e.clock m).clock n := by
  obtain ⟨initial, volume, increase, _ | c⟩ := e
  case none => rfl
  case some =>
    simp only [clock, Counter.run_add, repeat_eq_iterate]
    rw [Nat.add_comm (c.run m).fst, Function.iterate_add_apply]

theorem clock_ofRegister_of_still (h : bitField b 0 3 = 0) (ticks : Nat) :
    (ofRegister b).clock ticks = ofRegister b := by
  simp only [clock, ofRegister, if_pos h]

theorem clock_ofRegister_of_moving (h : bitField b 0 3 ≠ 0) (ticks : Nat) :
    (ofRegister b).clock ticks =
      let period := bitField b 0 3 * step
      { ofRegister b with
        ticks  := some { elapsed := ticks % period, period }
        volume := Nat.repeat (move (testBit b 3)) (ticks / period) (bitField b 4 4) } := by
  simp only [clock, ofRegister, if_neg h, Counter.ofPeriod, Counter.run_eq_div_mod, Nat.zero_add]

theorem clock_zero_ofRegister (b : UInt8) : (ofRegister b).clock 0 = ofRegister b := by
  by_cases hp : bitField b 0 3 = 0
  case pos => exact clock_ofRegister_of_still hp 0
  case neg =>
    rw [clock_ofRegister_of_moving hp]
    simp only [ofRegister, if_neg hp, Nat.zero_mod, Nat.zero_div]
    rfl

theorem volume_clock_ofRegister (b : UInt8) (ticks : Nat) :
    ((ofRegister b).clock ticks).volume = volumeAfter b ticks := by
  have hv : bitField b 4 4 ≤ 15 := Nat.le_of_lt_succ (bitField_lt b 4 4)
  have hs : bitField b 0 3 * step = 65536 * bitField b 0 3 := Nat.mul_comm ..
  simp only [volumeAfter]
  by_cases hp : bitField b 0 3 = 0
  case pos =>
    rw [clock_ofRegister_of_still hp, if_pos hp]
    rfl
  case neg =>
    rw [clock_ofRegister_of_moving hp, if_neg hp, ← hs]
    cases testBit b 3
    case true  => exact repeat_move_up hv _
    case false => exact repeat_move_down ..

end Envelope

theorem Pulse.envelope_act (p : Pulse) (a : Sweep.Action) : (p.act a).envelope = p.envelope := by
  cases a <;> rfl

-- The event starts the envelope of the channel anew.
def Channel.startsEnvelope (c : Channel) : Event → Bool
  | .advance _   => false
  | .write low v =>
    match Register.ofLow? low with
    | none   => false
    | some r => c.volume? = some r ∨ r = c.control ∧ Control.triggers v

namespace Channel

variable {c : Channel} {low v : UInt8}

theorem startsEnvelope_write (c : Channel) (q : Register) (v : UInt8) :
    c.startsEnvelope (.write q.low v) ↔
      c.volume? = some q ∨ q = c.control ∧ Control.triggers v := by
  simp [startsEnvelope, q.ofLow?_low]

theorem exists_of_startsEnvelope (h : c.startsEnvelope (.write low v)) :
    ∃ q : Register, low = q.low ∧ (c.volume? = some q ∨ q = c.control ∧ Control.triggers v) := by
  cases hq : Register.ofLow? low with
  | none   => simp [startsEnvelope, hq] at h
  | some q =>
    obtain rfl := Register.ofLow?_eq_some_iff.mp hq
    exact ⟨q, rfl, (c.startsEnvelope_write q v).mp h⟩

end Channel

end Sound

open Sound

namespace Apu

variable {s : Apu} {c : Channel} {r q : Sound.Register} {b v : UInt8} {ticks : Nat}

theorem silent_advance (h : ¬(s.lengthState c).sounds) (n : Nat) :
    ¬((s.advance n).snd.lengthState c).sounds := by
  simp only [advance]
  split
  case isFalse => exact h
  case isTrue  =>
    cases c
    case sweptPulse =>
      simp only [lengthState, clockChannels, SweptPulse.clock_of_silent h]
      exact h
    case pulse =>
      have hc : s.ch2.clock n = s.ch2 := if_neg h
      simp only [lengthState, clockChannels, hc]
      exact h
    case wave =>
      have hc : s.ch3.clock n = s.ch3 := if_neg h
      simp only [lengthState, clockChannels, hc]
      exact h
    case noise =>
      have hc : s.ch4.clock n = s.ch4 := if_neg h
      simp only [lengthState, clockChannels, hc]
      exact h

theorem envelope?_advance (hp : s.enabled) (hs : (s.lengthState c).sounds) (n : Nat) :
    (s.advance n).snd.envelope? c = (s.envelope? c).map fun e => e.clock n := by
  simp only [advance, hp, if_true]
  cases c
  case sweptPulse =>
    have he : s.ch1.pulse.enabled = true := hs
    simp only [envelope?, clockChannels, SweptPulse.clock_of_enabled he, Pulse.envelope_act,
      Pulse.clock, he, if_true, Option.map_some]
  case pulse =>
    have he : s.ch2.enabled = true := hs
    simp only [envelope?, clockChannels, Pulse.clock, he, if_true, Option.map_some]
  case wave => rfl
  case noise =>
    have he : s.ch4.enabled = true := hs
    simp only [envelope?, clockChannels, Noise.clock, he, if_true, Option.map_some]

theorem envelope?_started (hc : c.volume? = some r)
    (hq : c.volume? = some q ∨ q = c.control ∧ Control.triggers v) :
    (s.writePowered q v).envelope? c =
      some (.ofRegister ((s.writePowered q v).readRegister r)) := by
  obtain hq | ⟨rfl, hv⟩ := hq
  case inl =>
    obtain rfl : q = r := Option.some.inj (hq.symm.trans hc)
    cases c <;> cases hc <;> rfl
  case inr =>
    cases c <;> cases hc
    case sweptPulse =>
      simp only [Channel.control, writePowered, SweptPulse.setControl, Pulse.setControl, hv,
        if_true]
      rfl
    case pulse =>
      simp only [Channel.control, writePowered, Pulse.setControl, hv, if_true]
      rfl
    case noise =>
      simp only [Channel.control, writePowered, Noise.setControl, hv, if_true]
      rfl

theorem write_started (hp : s.enabled)
    (hq : c.volume? = some q ∨ q = c.control ∧ Control.triggers v) :
    s.write q.low v = s.writePowered q v := by
  obtain hq | ⟨rfl, -⟩ := hq
  · rw [write, q.ofLow?_low]
    cases c <;> cases hq <;> exact if_pos hp
  · exact write_control hp

theorem silent_powerOff (s : Apu) (c : Channel) : ¬(s.powerOff.lengthState c).sounds := by
  cases c <;> exact Bool.false_ne_true

theorem writePowered_keeps (s : Apu) (hq : c.volume? ≠ some q)
    (hv : ¬(q = c.control ∧ Control.triggers v)) :
    (s.writePowered q v).envelope? c = s.envelope? c ∧
    (((s.writePowered q v).lengthState c).sounds → (s.lengthState c).sounds) := by
  by_cases hc : q = c.control
  case pos =>
    subst hc
    have hn : ¬Control.triggers v := fun ht => hv ⟨rfl, ht⟩
    refine ⟨?_, fun h => ?_⟩
    · cases c
      case sweptPulse =>
        simp only [envelope?, Channel.control, writePowered, SweptPulse.setControl,
          Pulse.setControl, hn]
        rfl
      case pulse =>
        simp only [envelope?, Channel.control, writePowered, Pulse.setControl, hn]
        rfl
      case wave  => rfl
      case noise =>
        simp only [envelope?, Channel.control, writePowered, Noise.setControl, hn]
        rfl
    · rw [lengthState_writePowered_control hn] at h
      exact h
  case neg =>
    cases c <;> cases q <;> first
      | exact ⟨rfl, id⟩
      | exact absurd rfl hc
      | exact absurd rfl hq
      | exact ⟨rfl, fun h => (Bool.and_eq_true_iff.mp h).left⟩

-- As long as the channel sounds, its envelope has run for some ticks since a register started it.
structure Swells (s : Apu) (c : Channel) (b : UInt8) (ticks : Nat) : Prop where
  on       : (s.lengthState c).sounds → s.enabled
  envelope : (s.lengthState c).sounds → s.envelope? c = some ((Envelope.ofRegister b).clock ticks)

theorem swells_of_silent (h : ¬(s.lengthState c).sounds) : s.Swells c b ticks :=
  ⟨fun hs => absurd hs h, fun hs => absurd hs h⟩

theorem swells_start (hp : s.enabled) (hc : c.volume? = some r) {e : Event}
    (he : c.startsEnvelope e) : (s.follow e).Swells c ((s.follow e).read r.low) 0 := by
  cases e
  case advance n => exact absurd he Bool.false_ne_true
  case write low v =>
    obtain ⟨q, rfl, hq⟩ := Channel.exists_of_startsEnvelope he
    have hw : s.follow (.write q.low v) = s.writePowered q v := write_started hp hq
    have he : (s.writePowered q v).envelope? c =
        some (.ofRegister ((s.writePowered q v).readRegister r)) := envelope?_started hc hq
    rw [hw, read_low]
    refine ⟨fun _ => (s.writePowered_enabled q v).trans hp, fun _ => he.trans ?_⟩
    rw [Envelope.clock_zero_ofRegister]

namespace Swells

theorem advance (h : s.Swells c b ticks) (n : Nat) : (s.advance n).snd.Swells c b (ticks + n) := by
  by_cases hs : (s.lengthState c).sounds
  case neg => exact swells_of_silent (silent_advance hs n)
  case pos =>
    have he := envelope?_advance (h.on hs) hs n
    rw [h.envelope hs] at he
    refine ⟨fun _ => (s.advance_enabled n).trans (h.on hs), fun _ => he.trans ?_⟩
    exact congrArg some (Envelope.clock_add ..).symm

-- Without power no channel sounds.
theorem setPower (h : s.Swells c b ticks) (on : Bool) : (s.setPower on).Swells c b ticks := by
  by_cases hp : s.enabled && !on
  case pos =>
    have hs : s.setPower on = { s.powerOff with enabled := on } := by rw [Apu.setPower, if_pos hp]
    have hc : { s.powerOff with enabled := on }.lengthState c = s.powerOff.lengthState c := by
      cases c <;> rfl
    exact hs ▸ swells_of_silent (hc ▸ s.silent_powerOff c)
  case neg =>
    have hs : s.setPower on = { s with enabled := on } := by rw [Apu.setPower, if_neg hp]
    have hc : { s with enabled := on }.lengthState c = s.lengthState c := by cases c <;> rfl
    have he : { s with enabled := on }.envelope? c = s.envelope? c := by cases c <;> rfl
    rw [hs]
    refine ⟨fun h' => ?_, fun h' => he.trans (h.envelope (hc ▸ h'))⟩
    simpa [h.on (hc ▸ h')] using hp

theorem write (h : s.Swells c b ticks) {low : UInt8} (hn : ¬c.startsEnvelope (.write low v)) :
    (s.write low v).Swells c b ticks := by
  obtain ⟨-, hw⟩ | ⟨i, -, hw⟩ | ⟨q, -, -, rfl, hw⟩ | ⟨-, hw⟩ := s.write_cases low v
  · exact hw ▸ h.setPower _
  · rw [hw]
    exact ⟨by cases c <;> exact h.on, by cases c <;> exact h.envelope⟩
  · rw [c.startsEnvelope_write] at hn
    rw [hw]
    split
    case isFalse => exact h
    case isTrue hp =>
      obtain ⟨hq, hv⟩ := not_or.mp hn
      obtain ⟨he, hs⟩ := s.writePowered_keeps hq hv
      exact ⟨fun _ => (s.writePowered_enabled q v).trans hp,
        fun h' => he.trans (h.envelope (hs h'))⟩
  · rw [hw]
    exact h

theorem run (h : s.Swells c b ticks) {es : List Event} (hn : ∀ e ∈ es, ¬c.startsEnvelope e) :
    (s.run es).Swells c b (ticks + (es.map Event.ticks).sum) :=
  run_of_steps (P := fun ticks s => s.Swells c b ticks) h hn
    (fun h hn => h.write hn) (fun n h => h.advance n)

end Swells

-- A channel that sounds has the volume that its register and the time make of it, counted from the
-- last write to that register or the last trigger.
theorem volume_of_run (s : Apu) (c : Channel) (r : Sound.Register) (e : Event) (es : List Event)
    (hp : s.enabled) (hc : c.volume? = some r) (he : c.startsEnvelope e)
    (hn : ∀ e ∈ es, ¬c.startsEnvelope e) :
    let first := s.follow e
    let x := first.run es
    testBit (x.read 0x26) c.statusBit → (x.envelope? c).map Envelope.volume =
      some (volumeAfter (first.read r.low) (es.map Event.ticks).sum) := by
  intro first x hs
  have h := (swells_start hp hc he).run hn
  rw [Nat.zero_add] at h
  rw [h.envelope (testBit_read_master ▸ hs), Option.map_some, Envelope.volume_clock_ofRegister]

-- Three periods, of which the first one comes to the top.
theorem volume_of_run_top :
    let s := (postBoot {}).write 0x17 0xe9
    let es : List Event := [.advance 65535, .write 0x12 0x08, .advance 131073]
    let x := (s.write 0x19 0x80).run es
    s.enabled ∧ Channel.pulse.volume? = some .nr22 ∧
    Channel.pulse.startsEnvelope (.write 0x19 0x80) ∧
    (∀ e ∈ es, ¬Channel.pulse.startsEnvelope e) ∧ testBit (x.read 0x26) 1 ∧
    x.ch2.envelope.volume = 15 := by
  intro s es x
  have hp : s.enabled := rfl
  have he : Channel.pulse.startsEnvelope (.write 0x19 0x80) := by decide
  have hn : ∀ e ∈ es, ¬Channel.pulse.startsEnvelope e := by decide
  have hl : ¬Control.lengthOn 0x80 := by decide
  have hu : ∀ e ∈ es, Channel.pulse.untouched e := by decide
  have hr : s.Ready .pulse := trivial
  have hx := (inPhase_trigger hp hr (by decide) hl).run (by decide) hu
  have hs : testBit (x.read 0x26) 1 := (testBit_read_master (c := .pulse)).trans hx.sounds
  have hv := volume_of_run s .pulse .nr22 (.write 0x19 0x80) es hp rfl he hn hs
  exact ⟨hp, rfl, he, hn, hs, (Option.some.inj hv).trans (by decide)⟩

end Apu
end DotMatrix
