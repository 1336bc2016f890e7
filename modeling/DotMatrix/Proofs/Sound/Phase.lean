import DotMatrix.Proofs.Sound.Counters

namespace DotMatrix

theorem getElem?_flatMap_pair {α β : Type} (f g : α → β) (l : List α) (n : Nat) :
    (l.flatMap fun a => [f a, g a])[n]? =
      l[n / 2]?.map fun a => if n % 2 = 0 then f a else g a := by
  induction l generalizing n with
  | nil => rfl
  | cons a l ih =>
    match n with
    | 0     => rfl
    | 1     => rfl
    | n + 2 => simpa using ih n

namespace Sound

-- A phase that makes one step at each edge of a counter.
structure Oscillator (α : Type) where
  counter : Counter
  phase   : α

namespace Oscillator

variable {α : Type} {turn : α → α} {first : α} {period m n : Nat}

def clock (turn : α → α) (x : Oscillator α) (ticks : Nat) : Oscillator α :=
  let (edges, counter) := x.counter.run ticks
  { counter, phase := turn^[edges] x.phase }

-- What has run for some ticks since it was at its first phase.
def after (turn : α → α) (first : α) (period ticks : Nat) : Oscillator α where
  counter := { elapsed := ticks % period, period }
  phase   := turn^[ticks / period] first

theorem after_zero (turn : α → α) (first : α) (period : Nat) :
    after turn first period 0 = { counter := .ofPeriod period, phase := first } := by
  simp only [after, Nat.zero_mod, Nat.zero_div]
  rfl

theorem clock_after (h : 0 < period) :
    (after turn first period m).clock turn n = after turn first period (m + n) := by
  have hd : m / period ≤ (m + n) / period := Nat.div_le_div_right (Nat.le_add_right m n)
  simp only [clock, after, Counter.run_of_elapsed_mod h rfl, ← Function.iterate_add_apply,
    Nat.sub_add_cancel hd]

end Oscillator

-- The samples in the memory, in each byte the high one first.
def Wave.nibbles (w : Wave) : List UInt8 :=
  w.ram.toList.flatMap fun (b : UInt8) => [b >>> 4, b &&& 0xf]

theorem Wave.nibbles_position (w : Wave) : w.nibbles[w.position.toNat]? = some w.rawSample := by
  have hp : w.position.toNat / 2 < 16 := by
    have := w.position.isLt
    omega
  rw [nibbles, getElem?_flatMap_pair, Vector.getElem?_toList, Vector.getElem?_eq_getElem hp]
  rfl

theorem iterate_turn {width : Nat} (x : BitVec width) (n : Nat) :
    (· + 1)^[n] x = x + .ofNat width n := by
  rw [← repeat_eq_iterate, repeat_turn]

namespace Channel

-- Where a channel is in its wave form.
abbrev Phase : Channel → Type
  | sweptPulse | pulse => BitVec 3
  | wave               => BitVec 5
  | noise              => Lfsr

-- The event leaves the power on and the channel to itself, its length included.
def untouched (c : Channel) (e : Event) : Bool :=
  c.spared e && (e.valueAt? c.control.low).isNone

end Channel
end Sound

open Sound

namespace Apu

variable (s : Apu)

def oscillator : (c : Channel) → Oscillator c.Phase
  | .sweptPulse => { counter := s.ch1.pulse.ticks, phase := s.ch1.pulse.dutyStep }
  | .pulse      => { counter := s.ch2.ticks, phase := s.ch2.dutyStep }
  | .wave       => { counter := s.ch3.ticks, phase := s.ch3.position }
  | .noise      => { counter := s.ch4.ticks, phase := s.ch4.lfsr }

-- One step through the wave form.
def turn : (c : Channel) → c.Phase → c.Phase
  | .sweptPulse => fun (x : BitVec 3) => x + 1
  | .pulse      => fun (x : BitVec 3) => x + 1
  | .wave       => fun (x : BitVec 5) => x + 1
  | .noise      => Lfsr.shift s.ch4.shortMode

-- Where a trigger puts the channel.
def firstPhase : (c : Channel) → c.Phase
  | .sweptPulse => s.ch1.pulse.dutyStep
  | .pulse      => s.ch2.dutyStep
  | .wave       => 0
  | .noise      => {}

variable {s} {c : Channel}

theorem oscillator_advance (h : s.Steady c) (hs : (s.lengthState c).sounds) (ticks : Nat) :
    (s.advance ticks).snd.oscillator c = (s.oscillator c).clock (s.turn c) ticks := by
  simp only [advance, h.on, if_true]
  cases c
  case sweptPulse =>
    have hw := SweptPulse.clock_of_no_sweep ticks (h.sweep rfl)
    have he : s.ch1.pulse.enabled = true := hs
    simp only [oscillator, clockChannels, hw, Pulse.clock, he, if_true, ← iterate_turn]
    rfl
  case pulse =>
    have he : s.ch2.enabled = true := hs
    simp only [oscillator, clockChannels, Pulse.clock, he, if_true, ← iterate_turn]
    rfl
  case wave  =>
    have he : s.ch3.enabled = true := hs
    simp only [oscillator, clockChannels, Wave.clock, he, if_true, ← iterate_turn]
    rfl
  case noise =>
    have he : s.ch4.enabled = true := hs
    simp only [oscillator, clockChannels, Noise.clock, he, if_true, repeat_eq_iterate]
    rfl

theorem turn_advance (ticks : Nat) : (s.advance ticks).snd.turn c = s.turn c := by
  obtain ⟨_, _, _, _, _, hn⟩ := s.ch4.clock_eq ticks
  simp only [advance]
  split
  case isFalse => rfl
  case isTrue  =>
    cases c
    case noise => simp only [turn, clockChannels, hn]; rfl
    all_goals rfl

section Writes

variable {q : Sound.Register} {low v : UInt8}

theorem turn_writePowered (h : ¬c.owns q) : (s.writePowered q v).turn c = s.turn c := by
  cases c
  case noise => cases q <;> first | rfl | exact absurd rfl h
  all_goals rfl

theorem oscillator_writePowered (h : ¬c.owns q) :
    (s.writePowered q v).oscillator c = s.oscillator c := by
  cases c <;> cases q <;> first | rfl | exact absurd rfl h

-- What leaves a channel untouched leaves its wave form as it is.
theorem write_untouched (h : s.Steady c) (hu : c.untouched (.write low v)) :
    (s.write low v).Steady c ∧ (s.write low v).lengthState c = s.lengthState c ∧
    (s.write low v).turn c = s.turn c ∧ (s.write low v).oscillator c = s.oscillator c := by
  obtain ⟨hs, hn⟩ := Bool.and_eq_true_iff.mp hu
  have hl : low ≠ c.control.low := fun hl => by simp [Event.valueAt?, hl] at hn
  obtain ⟨hw, hx⟩ := write_spared h hs
  rw [if_neg hl] at hx
  refine ⟨hw, hx, ?_⟩
  obtain ⟨rfl, hw⟩ | ⟨i, rfl, hw⟩ | ⟨q, hq, -, rfl, hw⟩ | ⟨-, hw⟩ := s.write_cases low v
  · have hv : testBit v 7 := hs
    rw [hw, hv, setPower, Bool.not_true, Bool.and_false]
    exact ⟨by cases c <;> rfl, by cases c <;> rfl⟩
  · rw [hw]
    exact ⟨by cases c <;> rfl, by cases c <;> rfl⟩
  · have hc : q ≠ c.control := fun hc => hl (congrArg _ hc)
    have ho : ¬c.owns q := by simpa [c.spared_write hq, hc] using hs
    rw [hw, if_pos h.on]
    exact ⟨turn_writePowered ho, oscillator_writePowered ho⟩
  · rw [hw]
    exact ⟨rfl, rfl⟩

theorem oscillator_trigger (hv : Control.triggers v) :
    (s.writePowered c.control v).oscillator c = {
      counter := .ofPeriod ((s.writePowered c.control v).stepPeriod c)
      phase   := (s.writePowered c.control v).firstPhase c } := by
  cases c
  case sweptPulse =>
    simp only [Channel.control, writePowered, SweptPulse.setControl, Pulse.setControl, hv, if_true]
    rfl
  case pulse =>
    simp only [Channel.control, writePowered, Pulse.setControl, hv, if_true]
    rfl
  case wave =>
    simp only [Channel.control, writePowered, Wave.setControl, hv, if_true]
    rfl
  case noise =>
    simp only [Channel.control, writePowered, Noise.setControl, hv, if_true, stepPeriod,
      ← Noise.period_eq]
    rfl

end Writes

-- The channel sounds without end, and has run through its wave form for some ticks.
structure InPhase (s : Apu) (c : Channel) (move : c.Phase → c.Phase) (first : c.Phase)
    (period ticks : Nat) : Prop where
  steady     : s.Steady c
  sounds     : (s.lengthState c).sounds
  endless    : ¬(s.lengthState c).on
  turn       : s.turn c = move
  oscillator : s.oscillator c = .after move first period ticks

theorem inPhase_trigger {v : UInt8} (hp : s.enabled) (hr : s.Ready c) (hv : Control.triggers v)
    (hl : ¬Control.lengthOn v) :
    let t := s.write c.control.low v
    t.InPhase c (t.turn c) (t.firstPhase c) (t.stepPeriod c) 0 := by
  intro t
  have ht : t = s.writePowered c.control v := write_control hp
  have hx := lengthState_writePowered_trigger hr hv
  rw [ht]
  exact {
    steady     := steady_trigger hp hr hv
    sounds     := by rw [hx]
    endless    := by rw [hx]; exact hl
    turn       := rfl
    oscillator := (oscillator_trigger hv).trans (Oscillator.after_zero ..).symm }

namespace InPhase

variable {move : c.Phase → c.Phase} {first : c.Phase} {period ticks : Nat}

theorem advance (h : s.InPhase c move first period ticks) (hp : 0 < period) (n : Nat) :
    (s.advance n).snd.InPhase c move first period (ticks + n) := by
  have hx := lengthState_advance h.steady n
  rw [LengthState.clock_of_off h.endless] at hx
  exact {
    steady     := h.steady.advance n
    sounds     := hx ▸ h.sounds
    endless    := hx ▸ h.endless
    turn       := (turn_advance n).trans h.turn
    oscillator := by
      rw [oscillator_advance h.steady h.sounds, h.turn, h.oscillator, Oscillator.clock_after hp] }

theorem write (h : s.InPhase c move first period ticks) {low v : UInt8}
    (hu : c.untouched (.write low v)) : (s.write low v).InPhase c move first period ticks := by
  obtain ⟨hs, hx, ht, ho⟩ := write_untouched h.steady hu
  exact ⟨hs, hx ▸ h.sounds, hx ▸ h.endless, ht.trans h.turn, ho.trans h.oscillator⟩

theorem run (h : s.InPhase c move first period ticks) (hp : 0 < period) {es : List Event}
    (hu : ∀ e ∈ es, c.untouched e) :
    (s.run es).InPhase c move first period (ticks + (es.map Event.ticks).sum) :=
  run_of_steps (P := fun ticks s => s.InPhase c move first period ticks) h hu
    (fun h hu => h.write hu) (fun n h => h.advance hp n)

end InPhase

-- The channel has made some steps through its wave form since a moment at which it was triggered.
def Stepped (first s : Apu) (steps : Nat) : Channel → Prop
  | .sweptPulse =>
    s.ch1.pulse.dutyStep.toNat = (first.ch1.pulse.dutyStep.toNat + steps) % 8
  | .pulse => s.ch2.dutyStep.toNat = (first.ch2.dutyStep.toNat + steps) % 8
  | .wave  =>
    s.ch3.position.toNat = steps % 32 ∧ s.ch3.nibbles[steps % 32]? = some s.ch3.rawSample
  | .noise => s.ch4.lfsr = (Lfsr.shift first.ch4.shortMode)^[steps] { bits := 0x7fff }

theorem InPhase.stepped {first : Apu} {period ticks : Nat} {c : Channel}
    (h : s.InPhase c (first.turn c) (first.firstPhase c) period ticks) :
    first.Stepped s (ticks / period) c := by
  have hp : (s.oscillator c).phase = (first.turn c)^[ticks / period] (first.firstPhase c) :=
    congrArg Oscillator.phase h.oscillator
  cases c
  case sweptPulse =>
    have hd : s.ch1.pulse.dutyStep = first.ch1.pulse.dutyStep + .ofNat 3 (ticks / period) :=
      hp.trans (iterate_turn ..)
    rw [Stepped, hd]
    simp
  case pulse =>
    have hd : s.ch2.dutyStep = first.ch2.dutyStep + .ofNat 3 (ticks / period) :=
      hp.trans (iterate_turn ..)
    rw [Stepped, hd]
    simp
  case wave =>
    have hd : s.ch3.position = 0 + .ofNat 5 (ticks / period) := hp.trans (iterate_turn ..)
    have hn : s.ch3.position.toNat = ticks / period % 32 := by simp [hd]
    exact ⟨hn, hn ▸ s.ch3.nibbles_position⟩
  case noise => exact hp

-- A channel that is triggered with its length switched off is then, in any division of the time, as
-- many steps further as periods have passed, as long as nothing is written to it.
theorem phase_of_run (s : Apu) (c : Channel) (v : UInt8) (es : List Event) (hp : s.enabled)
    (hr : s.Ready c) (hv : Control.triggers v) (hl : ¬Control.lengthOn v)
    (hu : ∀ e ∈ es, c.untouched e) :
    let first := s.write c.control.low v
    first.Stepped (first.run es) ((es.map Event.ticks).sum / first.stepPeriod c) c := by
  intro first
  have h0 : 0 < first.stepPeriod c := Nat.lt_of_lt_of_le Nat.two_pos (first.two_le_stepPeriod c)
  have h := (inPhase_trigger hp hr hv hl).run h0 hu
  rw [Nat.zero_add] at h
  exact h.stepped

-- Seven ticks at the shortest period, with other channels and the wave memory written meanwhile.
theorem phase_of_run_wave :
    let s := ((postBoot {}).write 0x1a 0x80).write 0x1d 0xff
    let es : List Event := [.advance 3, .write 0x31 0x5a, .write 0x14 0x87, .advance 0, .advance 4]
    let x := (s.write 0x1e 0x87).run es
    s.enabled ∧ s.Ready .wave ∧ Control.triggers 0x87 ∧ ¬Control.lengthOn 0x87 ∧
    (∀ e ∈ es, Channel.wave.untouched e) ∧ (s.write 0x1e 0x87).stepPeriod .wave = 2 ∧
    x.ch3.position.toNat = 3 ∧ x.ch3.nibbles[3]? = some x.ch3.rawSample := by
  intro s es x
  have hp : s.enabled := rfl
  have hr : s.Ready .wave := (by decide : s.ch3.converterOn = true)
  have hv : Control.triggers 0x87 := by decide
  have hl : ¬Control.lengthOn 0x87 := by decide
  have hu : ∀ e ∈ es, Channel.wave.untouched e := by decide
  have ht : (s.write 0x1e 0x87).stepPeriod .wave = 2 := by decide
  have hn : (es.map Event.ticks).sum / (s.write 0x1e 0x87).stepPeriod .wave % 32 = 3 := by decide
  obtain ⟨hd, hx⟩ := phase_of_run s .wave 0x87 es hp hr hv hl hu
  exact ⟨hp, hr, hv, hl, hu, ht, hd.trans hn, hn ▸ hx⟩

end Apu
end DotMatrix
