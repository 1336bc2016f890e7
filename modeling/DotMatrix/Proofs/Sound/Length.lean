import DotMatrix.Proofs.Checked.Word
import DotMatrix.Proofs.Sound.Readback

namespace DotMatrix

namespace Sound

theorem Control.lengthOn_kept (b : UInt8) : lengthOn (kept b) = lengthOn b := by
  revert b
  decide +kernel

-- What the length of a channel is about.
structure LengthState where
  counter : Counter
  -- The length is switched on.
  on      : Bool
  sounds  : Bool

namespace LengthState

def clock (x : LengthState) (ticks : Nat) : LengthState :=
  if x.sounds then
    let (expired, counter) := Length.clock x.counter x.on ticks
    { x with counter, sounds := !expired }
  else
    x

def switch (x : LengthState) (on : Bool) : LengthState := { x with on }

variable {x : LengthState} {limit total ticks : Nat}

theorem clock_of_silent (h : ¬x.sounds) : x.clock ticks = x := if_neg h

theorem clock_of_off (h : ¬x.on) : x.clock ticks = x := by
  obtain ⟨counter, on, sounds⟩ := x
  cases sounds
  case false => rfl
  case true  => simp_all [clock, Length.clock]

-- The channel falls silent with the first period that its counter completes.
theorem clock_of_on (hs : x.sounds) (ho : x.on) : x.clock ticks =
    { x with
      counter := (x.counter.advance ticks).snd
      sounds  := !(x.counter.advance ticks).fst } := by
  simp only [clock, Length.clock, hs, ho, if_true]

theorem on_clock : (x.clock ticks).on = x.on := by
  simp only [clock]
  split <;> rfl

-- The length has been on for some ticks of those that it lasts. The counter tells them as long as
-- the channel sounds.
structure Lasts (x : LengthState) (limit total : Nat) : Prop where
  period  : x.counter.period = limit
  sounds  : x.sounds ↔ total < limit
  elapsed : x.sounds → x.counter.elapsed = total

namespace Lasts

theorem start (h : 0 < limit) (on : Bool) :
    Lasts { counter := .ofPeriod limit, on, sounds := true } limit 0 where
  period    := rfl
  sounds    := ⟨fun _ => h, fun _ => rfl⟩
  elapsed _ := rfl

theorem switch (h : x.Lasts limit total) (on : Bool) : (x.switch on).Lasts limit total :=
  ⟨h.period, h.sounds, h.elapsed⟩

theorem clock (h : x.Lasts limit total) (ticks : Nat) :
    (x.clock ticks).Lasts limit (total + if x.on then ticks else 0) := by
  by_cases ho : x.on
  case neg =>
    rw [clock_of_off ho, if_neg ho]
    exact h
  rw [if_pos ho]
  by_cases hs : x.sounds
  case neg =>
    have hl : ¬total < limit := mt h.sounds.mpr hs
    rw [clock_of_silent hs]
    exact ⟨h.period, ⟨fun he => absurd he hs, fun he => by omega⟩, fun he => absurd he hs⟩
  have hl : total < limit := h.sounds.mp hs
  have he : x.counter.elapsed = total := h.elapsed hs
  have hp : x.counter.period = limit := h.period
  rw [clock_of_on hs ho]
  by_cases hd : (x.counter.accrue ticks).Due
  case pos =>
    have ha : x.counter.advance ticks = (true, (x.counter.accrue ticks).take) := if_pos hd
    have hr : limit ≤ total + ticks := hp ▸ he ▸ hd.right
    rw [ha]
    exact ⟨hp, ⟨nofun, fun hn => absurd hn (Nat.not_lt.mpr hr)⟩, nofun⟩
  case neg =>
    have ha : x.counter.advance ticks = (false, x.counter.accrue ticks) := if_neg hd
    have hr : total + ticks < limit := by
      refine Nat.lt_of_not_le fun hr => hd ⟨?_, ?_⟩
      · exact hp ▸ Nat.zero_lt_of_lt hl
      · exact (hp ▸ he ▸ hr : x.counter.period ≤ x.counter.elapsed + ticks)
    rw [ha]
    exact ⟨hp, ⟨fun _ => hr, fun _ => rfl⟩, fun _ => congrArg (· + ticks) he⟩

end Lasts
end LengthState

-- Each channel with its length.

def Pulse.lengthState (p : Pulse) : LengthState where
  counter := p.length
  on      := Control.lengthOn p.nrx4
  sounds  := p.enabled

def Wave.lengthState (w : Wave) : LengthState where
  counter := w.length
  on      := Control.lengthOn w.nr34
  sounds  := w.enabled

def Noise.lengthState (n : Noise) : LengthState where
  counter := n.length
  on      := Control.lengthOn n.nr44
  sounds  := n.enabled

section Channels

variable (v : UInt8) (ticks : Nat)

theorem Pulse.lengthState_clock (p : Pulse) :
    (p.clock ticks).lengthState = p.lengthState.clock ticks := by
  cases he : p.enabled <;> simp [clock, lengthState, LengthState.clock, he]

theorem Wave.lengthState_clock (w : Wave) :
    (w.clock ticks).lengthState = w.lengthState.clock ticks := by
  cases he : w.enabled <;> simp [clock, lengthState, LengthState.clock, he]

theorem Noise.lengthState_clock (n : Noise) :
    (n.clock ticks).lengthState = n.lengthState.clock ticks := by
  cases he : n.enabled <;> simp [clock, lengthState, LengthState.clock, he]

-- A sweep can silence its channel as well.
theorem SweptPulse.clock_of_no_sweep {s : SweptPulse} (h : s.sweep.ticks = none) :
    s.clock ticks = { s with pulse := s.pulse.clock ticks } := by
  simp only [clock, Sweep.clock, h, Pulse.clock]
  split <;> rfl

theorem Pulse.lengthState_setControl (p : Pulse) : (p.setControl v).lengthState =
    if Control.triggers v then
      { counter := p.newLength, on := Control.lengthOn v, sounds := true }
    else p.lengthState.switch (Control.lengthOn v) := by
  simp only [setControl]
  split
  · simp [lengthState, trigger, rearm, newLength, Control.lengthOn_kept]
  · simp [lengthState, rearm, Control.lengthOn_kept, LengthState.switch]

theorem Wave.lengthState_setControl (w : Wave) : (w.setControl v).lengthState =
    if Control.triggers v then
      { counter := w.newLength, on := Control.lengthOn v, sounds := w.converterOn }
    else w.lengthState.switch (Control.lengthOn v) := by
  simp only [setControl]
  split
  · simp [lengthState, trigger, rearm, newLength, Control.lengthOn_kept, converterOn]
  · simp [lengthState, rearm, Control.lengthOn_kept, LengthState.switch]

theorem Noise.lengthState_setControl (n : Noise) : (n.setControl v).lengthState =
    if Control.triggers v then
      { counter := n.newLength, on := Control.lengthOn v, sounds := true }
    else n.lengthState.switch (Control.lengthOn v) := by
  simp only [setControl]
  split
  · simp [lengthState, trigger, newLength, Control.lengthOn_kept]
  · simp [lengthState, Control.lengthOn_kept, LengthState.switch]

end Channels

inductive Channel
  | sweptPulse
  | pulse
  | wave
  | noise
  deriving Repr, DecidableEq

namespace Channel

-- The register that triggers the channel and switches its length.
def control : Channel → Register
  | sweptPulse => .nr14
  | pulse      => .nr24
  | wave       => .nr34
  | noise      => .nr44

-- The registers of the channel.
def owns : Channel → Register → Bool
  | sweptPulse, .nr10 | sweptPulse, .nr11 | sweptPulse, .nr12 | sweptPulse, .nr13
  | sweptPulse, .nr14 => true
  | pulse, .nr21 | pulse, .nr22 | pulse, .nr23 | pulse, .nr24 => true
  | wave, .nr30 | wave, .nr31 | wave, .nr32 | wave, .nr33 | wave, .nr34 => true
  | noise, .nr41 | noise, .nr42 | noise, .nr43 | noise, .nr44 => true
  | _, _ => false

-- The bit of the master register that tells whether the channel sounds.
def statusBit : Channel → Nat
  | sweptPulse => 0
  | pulse      => 1
  | wave       => 2
  | noise      => 3

-- The length of a channel is what is missing from its programmed value to this one.
def fullLength : Channel → Nat
  | wave => 256
  | sweptPulse | pulse | noise => 64

-- The event leaves the power on and the channel to itself. Its length may be switched.
def spared (c : Channel) : Event → Bool
  | .advance _   => true
  | .write low v =>
    match Register.ofLow? low with
    | none   => true
    | some r =>
      if r = .nr52 then testBit v 7 else if r = c.control then !Control.triggers v else !c.owns r

-- The ticks in which the length of the channel is on, which it is at first or is not.
def lengthTicks (c : Channel) (on : Bool) : List Event → Nat
  | []                   => 0
  | .advance ticks :: es => (if on then ticks else 0) + c.lengthTicks on es
  | .write low v :: es   =>
    c.lengthTicks (if low = c.control.low then Control.lengthOn v else on) es

theorem control_ne_master (c : Channel) : c.control ≠ .nr52 := by
  cases c <;> nofun

theorem control_ne_wave (c : Channel) {i : Fin 16} : c.control ≠ .wave i := by
  cases c <;> nofun

theorem spared_write (c : Channel) {r : Register} (h : r ≠ .nr52) (v : UInt8) :
    c.spared (.write r.low v) = if r = c.control then !Control.triggers v else !c.owns r := by
  simp only [spared, r.ofLow?_low, if_neg h]

end Channel
end Sound

open Sound

namespace Apu

variable (s : Apu) (c : Channel)

def lengthState : LengthState :=
  match c with
  | .sweptPulse => s.ch1.pulse.lengthState
  | .pulse      => s.ch2.lengthState
  | .wave       => s.ch3.lengthState
  | .noise      => s.ch4.lengthState

-- The length that is programmed for the channel, which counts up.
def programmedLength : Nat :=
  match c with
  | .sweptPulse => bitField s.ch1.pulse.nrx1 0 6
  | .pulse      => bitField s.ch2.nrx1 0 6
  | .wave       => s.ch3.nr31.toNat
  | .noise      => bitField s.ch4.nr41 0 6

-- Nothing but its length will silence the channel once it is triggered.
def Ready : Prop :=
  match c with
  | .sweptPulse => s.ch1.sweep.period = 0
  | .wave       => s.ch3.converterOn
  | .pulse      => True
  | .noise      => True

-- The unit is on, and the channel has no sweep.
structure Steady : Prop where
  on    : s.enabled
  sweep : c = .sweptPulse → s.ch1.sweep.ticks = none

variable {s c}

theorem programmedLength_lt : s.programmedLength c < c.fullLength := by
  cases c
  case wave => exact s.ch3.nr31.toNat_lt
  all_goals exact bitField_lt _ 0 6

theorem testBit_read_master : testBit (s.read 0x26) c.statusBit = (s.lengthState c).sounds := by
  obtain ⟨-, -, h4, h3, h2, h1⟩ := s.testBit_status
  cases c
  case sweptPulse => exact h1
  case pulse      => exact h2
  case wave       => exact h3
  case noise      => exact h4

theorem lengthState_advance (h : s.Steady c) (ticks : Nat) :
    (s.advance ticks).snd.lengthState c = (s.lengthState c).clock ticks := by
  simp only [advance, h.on, if_true]
  cases c
  case sweptPulse =>
    have hs := SweptPulse.clock_of_no_sweep ticks (h.sweep rfl)
    simp only [lengthState, clockChannels, hs]
    exact s.ch1.pulse.lengthState_clock ticks
  case pulse => exact s.ch2.lengthState_clock ticks
  case wave  => exact s.ch3.lengthState_clock ticks
  case noise => exact s.ch4.lengthState_clock ticks

theorem Steady.advance (h : s.Steady c) (ticks : Nat) : (s.advance ticks).snd.Steady c where
  on := (s.advance_enabled ticks).trans h.on
  sweep hc := by
    have hs := SweptPulse.clock_of_no_sweep ticks (h.sweep hc)
    simp only [Apu.advance, h.on, if_true, clockChannels, hs]
    exact h.sweep hc

section Writes

variable {q : Sound.Register} {v : UInt8}

theorem lengthState_writePowered_of_not_owns (h : ¬c.owns q) :
    (s.writePowered q v).lengthState c = s.lengthState c := by
  cases c <;> cases q <;> first | rfl | exact absurd rfl h

theorem lengthState_writePowered_control (h : ¬Control.triggers v) :
    (s.writePowered c.control v).lengthState c =
      (s.lengthState c).switch (Control.lengthOn v) := by
  cases c
  case sweptPulse => exact (s.ch1.pulse.lengthState_setControl v).trans (if_neg h)
  case pulse      => exact (s.ch2.lengthState_setControl v).trans (if_neg h)
  case wave       => exact (s.ch3.lengthState_setControl v).trans (if_neg h)
  case noise      => exact (s.ch4.lengthState_setControl v).trans (if_neg h)

theorem lengthState_writePowered_trigger (hr : s.Ready c) (h : Control.triggers v) :
    (s.writePowered c.control v).lengthState c = {
      counter := Length.counter c.fullLength (s.programmedLength c)
      on      := Control.lengthOn v
      sounds  := true } := by
  cases c
  case sweptPulse => exact (s.ch1.pulse.lengthState_setControl v).trans (if_pos h)
  case pulse      => exact (s.ch2.lengthState_setControl v).trans (if_pos h)
  case wave =>
    have hw : s.ch3.converterOn = true := hr
    exact hw ▸ (s.ch3.lengthState_setControl v).trans (if_pos h)
  case noise      => exact (s.ch4.lengthState_setControl v).trans (if_pos h)

theorem Steady.writePowered (h : s.Steady c)
    (hq : ¬c.owns q ∨ q = c.control ∧ ¬Control.triggers v) : (s.writePowered q v).Steady c where
  on := (s.writePowered_enabled q v).trans h.on
  sweep hc := by
    subst hc
    have hs := h.sweep rfl
    cases q
    case nr10 => exact hq.elim (absurd rfl) (fun hq => nomatch hq.left)
    case nr14 =>
      have hn : ¬Control.triggers v := hq.elim (absurd rfl) (·.right)
      simpa [Apu.writePowered, SweptPulse.setControl, hn] using hs
    all_goals exact hs

theorem steady_trigger (hp : s.enabled) (hr : s.Ready c) (h : Control.triggers v) :
    (s.writePowered c.control v).Steady c where
  on := (s.writePowered_enabled c.control v).trans hp
  sweep hc := by
    subst hc
    have hs : s.ch1.sweep.period = 0 := hr
    simp [Apu.writePowered, Channel.control, SweptPulse.setControl, h, Sweep.trigger, hs]

theorem write_control (h : s.enabled) :
    s.write c.control.low v = s.writePowered c.control v := by
  rw [write, Sound.Register.ofLow?_low]
  cases c <;> exact if_pos h

-- Of what leaves the channel to itself only its switch matters to its length.
theorem write_spared {low : UInt8} (h : s.Steady c) (hs : c.spared (.write low v)) :
    (s.write low v).Steady c ∧ (s.write low v).lengthState c =
      if low = c.control.low then (s.lengthState c).switch (Control.lengthOn v)
      else s.lengthState c := by
  obtain ⟨rfl, hw⟩ | ⟨i, rfl, hw⟩ | ⟨q, hq, -, rfl, hw⟩ | ⟨hl, hw⟩ := s.write_cases low v
  · have hn : c.control.low ≠ 0x26 := Sound.Register.low_ne_master c.control_ne_master
    have hv : testBit v 7 := hs
    rw [hw, if_neg hn.symm, hv, setPower, Bool.not_true, Bool.and_false]
    exact ⟨⟨rfl, h.sweep⟩, by cases c <;> rfl⟩
  · have hn : (Sound.Register.wave i).low ≠ c.control.low :=
      Sound.Register.low_inj.not.mpr c.control_ne_wave.symm
    rw [hw, if_neg hn]
    exact ⟨⟨h.on, h.sweep⟩, by cases c <;> rfl⟩
  · rw [c.spared_write hq] at hs
    rw [hw, if_pos h.on]
    simp only [Sound.Register.low_inj]
    by_cases hc : q = c.control
    case pos =>
      subst hc
      have hv : ¬Control.triggers v := by simpa using hs
      exact ⟨h.writePowered (.inr ⟨rfl, hv⟩), (lengthState_writePowered_control hv).trans
        (if_pos rfl).symm⟩
    case neg =>
      have ho : ¬c.owns q := by simpa [hc] using hs
      exact ⟨h.writePowered (.inl ho), (lengthState_writePowered_of_not_owns ho).trans
        (if_neg hc).symm⟩
  · rw [hw, if_neg (hl _)]
    exact ⟨h, rfl⟩

end Writes

theorem lasts_run {limit total : Nat} (h : s.Steady c) (hl : (s.lengthState c).Lasts limit total)
    {es : List Event} (hs : ∀ e ∈ es, c.spared e) : ((s.run es).lengthState c).Lasts limit
      (total + c.lengthTicks (s.lengthState c).on es) := by
  induction es generalizing s total with
  | nil => exact hl
  | cons e es ih =>
    obtain ⟨he, hes⟩ := List.forall_mem_cons.mp hs
    cases e
    case advance ticks =>
      have hx := lengthState_advance h ticks
      have hn := ih (h.advance ticks) (hx ▸ hl.clock ticks) hes
      rw [hx, LengthState.on_clock, Nat.add_assoc] at hn
      exact hn
    case write low v =>
      obtain ⟨hw, hx⟩ := write_spared h he
      have hn : ((s.write low v).lengthState c).Lasts limit total := by
        rw [hx]
        split
        · exact hl.switch _
        · exact hl
      have ho : ((s.write low v).lengthState c).on =
          if low = c.control.low then Control.lengthOn v else (s.lengthState c).on := by
        rw [hx]
        split <;> rfl
      rw [Channel.lengthTicks, ← ho]
      exact ih hw hn hes

-- A channel that is triggered with some length sounds exactly as long as the ticks in which its
-- length was switched on since then are fewer than that length lasts.
theorem sounds_for_its_length (s : Apu) (c : Channel) (v : UInt8) (es : List Event)
    (hp : s.enabled) (hr : s.Ready c) (hv : Control.triggers v) (hs : ∀ e ∈ es, c.spared e) :
    testBit (((s.write c.control.low v).run es).read 0x26) c.statusBit ↔
      c.lengthTicks (Control.lengthOn v) es < (c.fullLength - s.programmedLength c) * 16384 := by
  have hl : 0 < (c.fullLength - s.programmedLength c) * 16384 :=
    Nat.mul_pos (Nat.sub_pos_of_lt programmedLength_lt) (by decide)
  have hx := lengthState_writePowered_trigger hr hv
  have h0 := LengthState.Lasts.start hl (Control.lengthOn v)
  have h := lasts_run (steady_trigger hp hr hv) (hx ▸ h0) hs
  rw [write_control hp, testBit_read_master, h.sounds, Nat.zero_add, hx]

-- Two units of length, switched off and on again in between, up to their last tick and after it.
theorem sounds_for_its_length_wave :
    let s := ((postBoot {}).write 0x1a 0x80).write 0x1b 254
    let es : List Event := [.advance 100000, .write 0x1e 0x40, .advance 32000, .write 0x12 0xf3,
      .write 0x1e 0, .advance 70000, .write 0x26 0x80, .write 0x1e 0x40, .advance 767]
    s.enabled ∧ s.Ready .wave ∧ Control.triggers 0x80 ∧
    (∀ e ∈ es ++ [.advance 1], Channel.wave.spared e) ∧
    testBit (((s.write 0x1e 0x80).run es).read 0x26) 2 ∧
    ¬testBit (((s.write 0x1e 0x80).run (es ++ [.advance 1])).read 0x26) 2 := by
  intro s es
  have hp : s.enabled := rfl
  have hr : s.Ready .wave := (by decide : s.ch3.converterOn = true)
  have hv : Control.triggers 0x80 := by decide
  have hs : ∀ e ∈ es ++ [.advance 1], Channel.wave.spared e := by decide
  have hb : ∀ e ∈ es, Channel.wave.spared e := fun e he => hs e (List.mem_append_left _ he)
  refine ⟨hp, hr, hv, hs, ?_, ?_⟩
  · exact (sounds_for_its_length s .wave 0x80 es hp hr hv hb).mpr (by decide)
  · exact (sounds_for_its_length s .wave 0x80 _ hp hr hv hs).not.mpr (by decide)

end Apu
end DotMatrix
