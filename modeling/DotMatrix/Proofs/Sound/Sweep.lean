import Mathlib.Algebra.Ring.Nat
import Mathlib.Logic.Function.Iterate
import DotMatrix.Proofs.Checked.Channels
import DotMatrix.Proofs.Sound.Registers

namespace DotMatrix.Sound

-- What a sweep changes about its channel.
structure Tone where
  frequency : Nat
  enabled   : Bool
  deriving Repr, DecidableEq

def Tone.silence (x : Tone) : Tone := { x with enabled := false }

theorem Tone.not_enabled_silence (x : Tone) : ¬x.silence.enabled := Bool.false_ne_true

-- What an action makes of a tone.
def Sweep.Action.apply (x : Tone) : Action → Tone
  | nothing                => x
  | disable                => x.silence
  | setFrequency frequency => { x with frequency }

-- A frequency that fits its registers, if there is one.
def Sweep.Action.Ranged : Action → Prop
  | nothing | disable      => True
  | setFrequency frequency => frequency ≤ 0x7ff

namespace Sweep

-- One step by itself. The step that leaves the range silences the channel at the frequency it has.
def move (s : Sweep) (x : Tone) : Tone :=
  if x.enabled then
    match s.next? x.frequency with
    | some frequency => { x with frequency }
    | none           => x.silence
  else
    x

-- The periods that complete within some ticks.
def completed (s : Sweep) (ticks : Nat) : Nat :=
  match s.ticks with
  | none   => 0
  | some c => (c.elapsed + ticks) / c.period

-- The sweep after some ticks, with what they leave of a period.
def elapse (s : Sweep) (ticks : Nat) : Sweep :=
  { s with ticks := s.ticks.map fun c => { c with elapsed := (c.elapsed + ticks) % c.period } }

-- The steps of one call. If one of them leaves the range, those before it are lost.
def moves (s : Sweep) (ticks : Nat) (x : Tone) : Tone :=
  let y := s.move^[s.completed ticks] x
  if y.enabled then y else x.silence

def movesAll (s : Sweep) : List Nat → Tone → Tone
  | [], x      => x
  | t :: ts, x => (s.elapse t).movesAll ts (s.moves t x)

-- None of the calls completes more than one period.
def Apart (s : Sweep) : List Nat → Prop
  | []      => True
  | t :: ts => s.completed t ≤ 1 ∧ (s.elapse t).Apart ts

instance decidableApart : (s : Sweep) → (ts : List Nat) → Decidable (s.Apart ts)
  | _, []      => inferInstanceAs (Decidable True)
  | s, t :: ts =>
    have := decidableApart (s.elapse t) ts
    inferInstanceAs (Decidable (_ ∧ _))

variable {s : Sweep} {x y : Tone} {f g n ticks : Nat} {ts : List Nat}

theorem move_of_some (hx : x.enabled) (h : s.next? x.frequency = some g) :
    s.move x = { frequency := g, enabled := true } := by
  simp [move, hx, h]

theorem move_of_none (hx : x.enabled) (h : s.next? x.frequency = none) :
    s.move x = x.silence := by
  simp [move, hx, h]

theorem move_of_silent (h : ¬x.enabled) : s.move x = x := if_neg h

theorem iterate_move_of_silent (h : ¬x.enabled) (n : Nat) : s.move^[n] x = x :=
  Function.iterate_fixed (move_of_silent h) n

theorem iterate_move_le (h : x.frequency ≤ 0x7ff) (n : Nat) :
    (s.move^[n] x).frequency ≤ 0x7ff := by
  have hm (y : Tone) (hy : y.frequency ≤ 0x7ff) : (s.move y).frequency ≤ 0x7ff := by
    rw [move]
    split
    case isFalse => exact hy
    case isTrue =>
      split
      case h_1 hn => exact next?_le hn
      case h_2    => exact hy
  exact Function.Iterate.rec (fun y : Tone => y.frequency ≤ 0x7ff) h hm n

theorem move_frequency (s : Sweep) (x : Tone) :
    let offset := x.frequency >>> bitField s.nr10 0 3
    (s.move x).frequency = x.frequency ∨ (s.move x).frequency =
      if testBit s.nr10 3 then x.frequency - offset else x.frequency + offset := by
  intro offset
  by_cases hx : x.enabled
  case neg => exact .inl (congrArg Tone.frequency (move_of_silent hx))
  cases hn : s.next? x.frequency with
  | none =>
    rw [move_of_none hx hn]
    exact .inl rfl
  | some next =>
    obtain ⟨-, hn'⟩ := Option.ite_none_right_eq_some.mp hn
    cases hn'
    exact .inr (congrArg Tone.frequency (move_of_some hx hn))

theorem frequency_le_move (h : ¬testBit s.nr10 3) (x : Tone) :
    x.frequency ≤ (s.move x).frequency := by
  obtain hm | hm := s.move_frequency x
  · exact Nat.le_of_eq hm.symm
  · rw [hm, if_neg h]
    exact Nat.le_add_right ..

theorem move_frequency_le (h : testBit s.nr10 3) (x : Tone) :
    (s.move x).frequency ≤ x.frequency := by
  obtain hm | hm := s.move_frequency x
  · exact Nat.le_of_eq hm
  · rw [hm, if_pos h]
    exact Nat.sub_le ..

-- A sweep never comes back to a frequency that it has left.
theorem iterate_move_frequency_ne (h : x.frequency ≠ (s.move x).frequency) (n : Nat) :
    (s.move^[n] (s.move x)).frequency ≠ x.frequency := by
  by_cases hd : testBit s.nr10 3
  case pos =>
    have hl : (s.move x).frequency < x.frequency :=
      Nat.lt_of_le_of_ne (move_frequency_le hd x) h.symm
    have hn : (s.move^[n] (s.move x)).frequency ≤ (s.move x).frequency :=
      Function.Iterate.rec (fun y : Tone => y.frequency ≤ (s.move x).frequency) (Nat.le_refl _)
        (fun y hy => Nat.le_trans (move_frequency_le hd y) hy) n
    exact Nat.ne_of_lt (Nat.lt_of_le_of_lt hn hl)
  case neg =>
    have hl : x.frequency < (s.move x).frequency :=
      Nat.lt_of_le_of_ne (frequency_le_move hd x) h
    have hn : (s.move x).frequency ≤ (s.move^[n] (s.move x)).frequency :=
      Function.Iterate.rec (fun y : Tone => (s.move x).frequency ≤ y.frequency) (Nat.le_refl _)
        (fun y hy => Nat.le_trans hy (frequency_le_move hd y)) n
    exact Nat.ne_of_gt (Nat.lt_of_lt_of_le hl hn)

-- Steps that end out of range leave the frequency alone only if the first one is out of range.
theorem iterate_move_frequency_eq_iff (hx : x.enabled) (h : ¬(s.move^[n] x).enabled) :
    (s.move^[n] x).frequency = x.frequency ↔ s.next? x.frequency = none := by
  cases n with
  | zero => exact absurd hx h
  | succ n =>
    rw [Function.iterate_succ_apply] at h ⊢
    cases hn : s.next? x.frequency with
    | none =>
      have hm : s.move x = x.silence := move_of_none hx hn
      rw [hm, iterate_move_of_silent x.not_enabled_silence]
      exact iff_of_true rfl rfl
    | some g =>
      have hm := move_of_some hx hn
      refine iff_of_false (iterate_move_frequency_ne (fun he => h ?_) n) nofun
      -- The step does nothing, so the sweep never ends.
      have hf : s.move x = x := by
        rw [hm] at he ⊢
        obtain ⟨frequency, enabled⟩ := x
        cases he
        exact congrArg _ hx.symm
      rw [hf, Function.iterate_fixed hf]
      exact hx

-- What the steps of one call come to, from their first on.
theorem apply_follow {soFar : Action} (hx : x.enabled)
    (h : soFar.apply x = { frequency := f, enabled := true }) (n : Nat) :
    (s.follow f soFar n).apply x =
      let y := s.move^[n] { frequency := f, enabled := true }
      if y.enabled then y else x.silence := by
  induction n generalizing f soFar with
  | zero => exact h
  | succ n ih =>
    rw [follow, Function.iterate_succ_apply]
    cases hn : s.next? f with
    | none =>
      rw [move_of_none rfl hn, iterate_move_of_silent (Tone.not_enabled_silence _)]
      rfl
    | some next =>
      rw [move_of_some rfl hn]
      exact ih (congrArg (Tone.mk next) hx)

theorem follow_ranged {soFar : Action} (h : soFar.Ranged) (n : Nat) :
    (s.follow f soFar n).Ranged := by
  induction n generalizing f soFar with
  | zero => exact h
  | succ n ih =>
    rw [follow]
    split
    case h_1 hn => exact ih (next?_le hn)
    case h_2    => trivial

theorem clock_eq (s : Sweep) (ticks f : Nat) :
    s.clock ticks f = (s.follow f .nothing (s.completed ticks), s.elapse ticks) := by
  obtain ⟨nr10, _ | c⟩ := s
  case none => rfl
  case some => simp only [clock, Counter.run_eq_div_mod, completed, elapse, Option.map_some]

-- What the sweep asks of its channel is what the steps come to.
theorem apply_clock (hx : x.enabled) (ticks : Nat) :
    (s.clock ticks x.frequency).fst.apply x = s.moves ticks x := by
  have he : x = { frequency := x.frequency, enabled := true } := congrArg (Tone.mk _) hx
  have h0 : Action.nothing.apply x = { frequency := x.frequency, enabled := true } := he
  have hf := apply_follow (s := s) hx h0 (s.completed ticks)
  rw [← he] at hf
  rw [clock_eq]
  exact hf

theorem clock_ranged (s : Sweep) (ticks f : Nat) : (s.clock ticks f).fst.Ranged := by
  have h0 : Action.nothing.Ranged := trivial
  rw [clock_eq]
  exact follow_ranged h0 _

theorem completed_add (s : Sweep) (m n : Nat) :
    s.completed (m + n) = s.completed m + (s.elapse m).completed n := by
  obtain ⟨nr10, _ | c⟩ := s
  case none => rfl
  case some =>
    simp only [completed, elapse, Option.map_some, ← Nat.add_assoc]
    exact Counter.add_div_of_mod ..

-- Once a sweep is clocked, no more of its periods are complete.
theorem completed_elapse_zero (s : Sweep) (ticks : Nat) : (s.elapse ticks).completed 0 = 0 := by
  obtain ⟨nr10, _ | c⟩ := s
  case none => rfl
  case some => exact Nat.mod_div_self ..

theorem moves_of_silent (h : ¬x.enabled) (ticks : Nat) : s.moves ticks x = x := by
  obtain ⟨f, _ | _⟩ := x
  case false => simp [moves, iterate_move_of_silent h, Tone.silence]
  case true  => exact absurd rfl h

theorem movesAll_of_silent (s : Sweep) (ts : List Nat) (h : ¬x.enabled) : s.movesAll ts x = x := by
  induction ts generalizing s with
  | nil => rfl
  | cons t ts ih =>
    rw [movesAll, moves_of_silent h]
    exact ih _

variable {t : Nat}

theorem moves_of_inRange (h : (s.move^[s.completed t] x).enabled) :
    s.moves t x = s.move^[s.completed t] x := if_pos h

theorem moves_of_outOfRange (h : ¬(s.move^[s.completed t] x).enabled) :
    s.moves t x = x.silence := if_neg h

theorem iterate_move_cons : s.move^[s.completed (t :: ts).sum] x =
    (s.elapse t).move^[(s.elapse t).completed ts.sum] (s.move^[s.completed t] x) := by
  rw [List.sum_cons, completed_add, Nat.add_comm, Function.iterate_add_apply]
  rfl

-- As long as the steps stay in range the calls come to one step for each period.
theorem movesAll_of_inRange (h0 : ts = [] → s.completed 0 = 0)
    (h : (s.move^[s.completed ts.sum] x).enabled) :
    s.movesAll ts x = s.move^[s.completed ts.sum] x := by
  induction ts generalizing s x with
  | nil => rw [List.sum_nil, h0 rfl]; rfl
  | cons t ts ih =>
    rw [iterate_move_cons] at h ⊢
    have hy : (s.move^[s.completed t] x).enabled :=
      by_contra fun hy => hy (iterate_move_of_silent hy _ ▸ h)
    rw [movesAll, moves_of_inRange hy]
    exact ih (fun _ => s.completed_elapse_zero t) h

-- Otherwise there is one call that leaves the range. The calls come to what was before it.
theorem exists_of_outOfRange (h0 : ts = [] → s.completed 0 = 0) (hx : x.enabled)
    (h : ¬(s.move^[s.completed ts.sum] x).enabled) :
    ∃ before t after, ts = before ++ t :: after ∧
      let y := s.movesAll before x
      y.enabled ∧ ¬(s.movesAll (before ++ [t]) x).enabled ∧ s.movesAll ts x = y.silence ∧
      (y.frequency = (s.move^[s.completed ts.sum] x).frequency ↔ s.next? y.frequency = none) := by
  induction ts generalizing s x with
  | nil =>
    rw [List.sum_nil, h0 rfl] at h
    exact absurd hx h
  | cons t ts ih =>
    rw [iterate_move_cons] at h ⊢
    by_cases hy : (s.move^[s.completed t] x).enabled
    case pos =>
      obtain ⟨before, u, after, hts, hb⟩ := ih (fun _ => s.completed_elapse_zero t) hy h
      refine ⟨t :: before, u, after, congrArg (t :: ·) hts, ?_⟩
      simp only [List.cons_append, movesAll, moves_of_inRange hy]
      exact hb
    case neg =>
      have hs : s.movesAll (t :: ts) x = x.silence := by
        rw [movesAll, moves_of_outOfRange hy, movesAll_of_silent _ _ x.not_enabled_silence]
      refine ⟨[], t, ts, rfl, hx, ?_, hs, ?_⟩
      · rw [List.nil_append, movesAll, moves_of_outOfRange hy]
        exact x.not_enabled_silence
      · rw [iterate_move_of_silent hy, eq_comm]
        exact iterate_move_frequency_eq_iff hx hy

theorem movesAll_enabled_iff (h0 : ts = [] → s.completed 0 = 0) (hx : x.enabled) :
    (s.movesAll ts x).enabled ↔ (s.move^[s.completed ts.sum] x).enabled := by
  by_cases h : (s.move^[s.completed ts.sum] x).enabled
  case pos => rw [movesAll_of_inRange h0 h]
  case neg =>
    obtain ⟨before, t, after, -, -, -, hs, -⟩ := exists_of_outOfRange h0 hx h
    rw [hs]
    exact iff_of_false (Tone.not_enabled_silence _) h

-- A call of one period has no steps to lose.
theorem movesAll_of_apart (h0 : ts = [] → s.completed 0 = 0) (hx : x.enabled) (ha : s.Apart ts) :
    s.movesAll ts x = s.move^[s.completed ts.sum] x := by
  induction ts generalizing s x with
  | nil => rw [List.sum_nil, h0 rfl]; rfl
  | cons t ts ih =>
    rw [iterate_move_cons, movesAll]
    by_cases hy : (s.move^[s.completed t] x).enabled
    case pos =>
      rw [moves_of_inRange hy]
      exact ih (fun _ => s.completed_elapse_zero t) hy ha.right
    case neg =>
      have hc : s.completed t = 1 :=
        Nat.le_antisymm ha.left (Nat.one_le_iff_ne_zero.mpr fun hc => hy (hc ▸ hx))
      have hm : s.move x = x.silence := by
        cases hn : s.next? x.frequency with
        | none   => exact move_of_none hx hn
        | some _ => exact absurd (hc ▸ congrArg Tone.enabled (move_of_some hx hn)) hy
      rw [iterate_move_of_silent hy, moves_of_outOfRange hy, hc, Function.iterate_one, hm]
      exact movesAll_of_silent _ _ x.not_enabled_silence

end Sweep

-- The bits of a control register that do not belong to the frequency.
def Control.otherBits (b : UInt8) : UInt8 := b &&& 0xf8

namespace Control

theorem bitField_setFrequency (b : UInt8) (frequency : Nat) :
    bitField (setFrequency b frequency) 0 3 = frequency / 0x100 % 8 := by
  have h : ∀ (b : UInt8) (high : Fin 8), bitField ((b &&& 0xf8) ||| .ofNat high) 0 3 = high := by
    decide +kernel
  exact h b ⟨frequency / 0x100 % 8, Nat.mod_lt _ (by decide)⟩

theorem otherBits_setFrequency (b : UInt8) (frequency : Nat) :
    otherBits (setFrequency b frequency) = otherBits b := by
  have h : ∀ (b : UInt8) (high : Fin 8),
      otherBits ((b &&& 0xf8) ||| .ofNat high) = otherBits b := by decide +kernel
  exact h b ⟨frequency / 0x100 % 8, Nat.mod_lt _ (by decide)⟩

theorem lengthOn_otherBits (b : UInt8) : lengthOn (otherBits b) = lengthOn b := by
  revert b
  decide +kernel

theorem otherBits_or_bitField (b : UInt8) : otherBits b ||| .ofNat (bitField b 0 3) = b := by
  revert b
  decide +kernel

end Control

namespace Pulse

-- The registers that hold the frequency.
def tuning (p : Pulse) : UInt8 × UInt8 := (p.nrx3, p.nrx4)

variable {p q : Pulse} {f g : Nat}

theorem frequency_setFrequency (h : f ≤ 0x7ff) : (p.setFrequency f).frequency = f := by
  have hl : (UInt8.ofNat f).toNat = f % 256 := UInt8.toNat_ofNat'
  have hc := Control.bitField_setFrequency p.nrx4 f
  simp only [frequency, Sound.frequency, setFrequency, rearm, hl, hc]
  omega

theorem frequency_eq_of_tuning (h : p.tuning = q.tuning) : p.frequency = q.frequency := by
  obtain ⟨hl, hc⟩ := Prod.mk.inj h
  rw [frequency, frequency, hl, hc]

theorem tuning_setFrequency_inj (hf : f ≤ 0x7ff) (hg : g ≤ 0x7ff) :
    (p.setFrequency f).tuning = (p.setFrequency g).tuning ↔ f = g := by
  refine ⟨fun h => ?_, congrArg fun f => (p.setFrequency f).tuning⟩
  rw [← frequency_setFrequency hf, frequency_eq_of_tuning h, frequency_setFrequency hg]

theorem tuning_setFrequency_self (p : Pulse) : (p.setFrequency p.frequency).tuning = p.tuning := by
  have hb : bitField p.nrx4 0 3 < 8 := bitField_lt ..
  have hl : p.nrx3.toNat < 256 := p.nrx3.toNat_lt
  have hf : p.frequency = bitField p.nrx4 0 3 * 0x100 + p.nrx3.toNat := rfl
  have hlow : UInt8.ofNat p.frequency = p.nrx3 := by
    rw [← UInt8.toNat_inj, UInt8.toNat_ofNat']
    omega
  have hhigh : p.frequency / 0x100 % 8 = bitField p.nrx4 0 3 := by omega
  have hc := Control.otherBits_or_bitField p.nrx4
  rw [Control.otherBits] at hc
  simp only [tuning, setFrequency, rearm, Control.setFrequency, hlow, hhigh, hc]

-- Two channels with the same bits apart from their frequencies.
theorem tuning_of_otherBits (h : Control.otherBits q.nrx4 = Control.otherBits p.nrx4) :
    q.tuning = (p.setFrequency q.frequency).tuning := by
  rw [Control.otherBits, Control.otherBits] at h
  rw [← q.tuning_setFrequency_self]
  simp only [tuning, setFrequency, rearm, Control.setFrequency, h]

def tone (p : Pulse) : Tone where
  frequency := p.frequency
  enabled   := p.enabled

-- With its length switched off a channel does not fall silent by itself.
theorem tone_clock (hl : ¬Control.lengthOn p.nrx4) (ticks : Nat) :
    (p.clock ticks).tone = p.tone := by
  by_cases he : p.enabled
  case pos => simp [clock, Length.clock, tone, frequency, he, hl]
  case neg => exact congrArg tone (if_neg he)

-- What an action makes of a channel.
def act (p : Pulse) : Sweep.Action → Pulse
  | .nothing                => p
  | .disable                => { p with enabled := false }
  | .setFrequency frequency => p.setFrequency frequency

theorem tone_act {a : Sweep.Action} (h : a.Ranged) :
    (p.act a).tone = a.apply p.tone := by
  cases a
  case nothing        => rfl
  case disable        => rfl
  case setFrequency f => exact congrArg (Tone.mk · p.enabled) (frequency_setFrequency h)

theorem otherBits_act (a : Sweep.Action) :
    Control.otherBits (p.act a).nrx4 = Control.otherBits p.nrx4 := by
  cases a
  case nothing        => rfl
  case disable        => rfl
  case setFrequency f => exact Control.otherBits_setFrequency ..

end Pulse

namespace SweptPulse

variable {s : SweptPulse} {ts : List Nat}

def clockAll (s : SweptPulse) (ts : List Nat) : SweptPulse := ts.foldl clock s

theorem clock_of_silent (h : ¬s.pulse.enabled) (ticks : Nat) : s.clock ticks = s := if_neg h

theorem clock_of_enabled (he : s.pulse.enabled) (ticks : Nat) : s.clock ticks = {
    pulse := (s.pulse.clock ticks).act (s.sweep.clock ticks s.pulse.frequency).fst
    sweep := s.sweep.elapse ticks } := by
  obtain ⟨_, _, _, _, _, hp⟩ := s.pulse.clock_eq ticks
  have hf : (s.pulse.clock ticks).frequency = s.pulse.frequency := by rw [hp]; rfl
  simp only [clock, if_pos he, hf, Sweep.clock_eq]
  split <;> simp only [*] <;> rfl

theorem otherBits_clock (s : SweptPulse) (ticks : Nat) :
    Control.otherBits (s.clock ticks).pulse.nrx4 = Control.otherBits s.pulse.nrx4 := by
  by_cases he : s.pulse.enabled
  case neg => rw [clock_of_silent he]
  case pos =>
    obtain ⟨_, _, _, _, _, hp⟩ := s.pulse.clock_eq ticks
    rw [clock_of_enabled he, Pulse.otherBits_act, hp]

theorem otherBits_clockAll (s : SweptPulse) (ts : List Nat) :
    Control.otherBits (s.clockAll ts).pulse.nrx4 = Control.otherBits s.pulse.nrx4 := by
  induction ts generalizing s with
  | nil => rfl
  | cons t ts ih => exact (ih (s.clock t)).trans (s.otherBits_clock t)

theorem lengthOn_clock (s : SweptPulse) (ticks : Nat) :
    Control.lengthOn (s.clock ticks).pulse.nrx4 = Control.lengthOn s.pulse.nrx4 := by
  rw [← Control.lengthOn_otherBits, otherBits_clock, Control.lengthOn_otherBits]

theorem tone_clock (hl : ¬Control.lengthOn s.pulse.nrx4) (ticks : Nat) :
    (s.clock ticks).pulse.tone = s.sweep.moves ticks s.pulse.tone := by
  by_cases he : s.pulse.enabled
  case neg => rw [clock_of_silent he, Sweep.moves_of_silent he]
  case pos =>
    have hm := Sweep.apply_clock (s := s.sweep) (x := s.pulse.tone) he ticks
    rw [clock_of_enabled he, Pulse.tone_act (Sweep.clock_ranged ..), Pulse.tone_clock hl]
    exact hm

-- For the tone all that matters about the channel is its sweep.
theorem tone_clockAll (hl : ¬Control.lengthOn s.pulse.nrx4) (ts : List Nat) :
    (s.clockAll ts).pulse.tone = s.sweep.movesAll ts s.pulse.tone := by
  induction ts generalizing s with
  | nil => rfl
  | cons t ts ih =>
    have hi := ih (s := s.clock t) (s.lengthOn_clock t ▸ hl)
    rw [tone_clock hl] at hi
    refine hi.trans ?_
    by_cases he : s.pulse.enabled
    case pos => rw [clock_of_enabled he]; rfl
    case neg =>
      rw [clock_of_silent he, Sweep.movesAll, Sweep.moves_of_silent he]
      rw [Sweep.movesAll_of_silent _ _ he, Sweep.movesAll_of_silent _ _ he]

theorem tuning_clockAll (s : SweptPulse) (ts : List Nat) : (s.clockAll ts).pulse.tuning =
    (s.pulse.setFrequency (s.clockAll ts).pulse.frequency).tuning :=
  Pulse.tuning_of_otherBits (s.otherBits_clockAll ts)

theorem tuning_clockAll_eq_iff {f : Nat} (hf : f ≤ 0x7ff) :
    (s.clockAll ts).pulse.tuning = (s.pulse.setFrequency f).tuning ↔
      (s.clockAll ts).pulse.frequency = f := by
  rw [tuning_clockAll]
  exact Pulse.tuning_setFrequency_inj (Nat.le_of_lt_succ (Pulse.frequency_lt _)) hf

-- In any division of the time the channel falls silent with the first step that leaves the range.
-- Its frequency is that of the steps in range, unless the call in which it falls silent has some of
-- them: the frequency is then what it was before that call. A period that was complete before the
-- first call is told by a call only.
theorem sweeps_by_periods (s : SweptPulse) (ts : List Nat) (he : s.pulse.enabled)
    (hl : ¬Control.lengthOn s.pulse.nrx4) (h0 : ts = [] → s.sweep.completed 0 = 0) :
    let x := s.sweep.move^[s.sweep.completed ts.sum] s.pulse.tone
    let p := (s.clockAll ts).pulse
    (p.enabled ↔ x.enabled) ∧
    (x.enabled ∨ s.sweep.Apart ts → p.tuning = (s.pulse.setFrequency x.frequency).tuning) ∧
    (¬x.enabled → ∃ before t after, ts = before ++ t :: after ∧
      let q := (s.clockAll before).pulse
      q.enabled ∧ ¬(s.clockAll (before ++ [t])).pulse.enabled ∧ p.tuning = q.tuning ∧
      (p.tuning = (s.pulse.setFrequency x.frequency).tuning ↔
        s.sweep.next? q.frequency = none)) := by
  intro x p
  have hx : x.frequency ≤ 0x7ff :=
    Sweep.iterate_move_le (Nat.le_of_lt_succ s.pulse.frequency_lt) _
  have hc (us : List Nat) := tone_clockAll hl us
  refine ⟨?_, fun h => ?_, fun h => ?_⟩
  · have hp : p.enabled = (s.sweep.movesAll ts s.pulse.tone).enabled :=
      congrArg Tone.enabled (hc ts)
    rw [hp]
    exact Sweep.movesAll_enabled_iff h0 he
  · have hp : p.tone = x := (hc ts).trans <| h.elim
      (Sweep.movesAll_of_inRange h0) (Sweep.movesAll_of_apart h0 he)
    exact (tuning_clockAll_eq_iff hx).mpr (congrArg Tone.frequency hp)
  · obtain ⟨before, t, after, hts, hb, hn, hs, hi⟩ := Sweep.exists_of_outOfRange h0 he h
    have hp : p.frequency = (s.clockAll before).pulse.frequency := by
      have hq := (hc ts).trans hs
      rw [← hc before] at hq
      exact congrArg Tone.frequency hq
    rw [← hc before] at hb hi
    rw [← hc (before ++ [t])] at hn
    refine ⟨before, t, after, hts, hb, hn, ?_, ?_⟩
    · rw [tuning_clockAll, hp, tuning_clockAll]
    · rw [tuning_clockAll_eq_iff hx, hp]
      exact hi

-- Four periods, of which the last one leaves the range, in four calls.
theorem sweeps_by_periods_up :
    let s : SweptPulse := (setSweep {} 0x11).setControl 0x82
    let p := (s.clockAll (.replicate 4 32768)).pulse
    s.pulse.enabled ∧ ¬Control.lengthOn s.pulse.nrx4 ∧ s.sweep.Apart (.replicate 4 32768) ∧
    s.pulse.frequency = 0x200 ∧ ¬p.enabled ∧ p.tuning = (0xc0, 0x06) := by
  intro s p
  have he : s.pulse.enabled := rfl
  have hl : ¬Control.lengthOn s.pulse.nrx4 := by decide
  have ha : s.sweep.Apart (.replicate 4 32768) := by decide
  obtain ⟨hp, ht, -⟩ := sweeps_by_periods s (.replicate 4 32768) he hl nofun
  refine ⟨he, hl, ha, by decide, hp.not.mpr (by decide), (ht (.inr ha)).trans (by decide)⟩

-- The same time in one call. The three steps in range are lost with the one that is not.
theorem sweep_depends_on_calls :
    let s : SweptPulse := (setSweep {} 0x11).setControl 0x82
    let split := (s.clockAll (.replicate 4 32768)).pulse
    let whole := (s.clockAll [131072]).pulse
    s.pulse.enabled ∧ ¬Control.lengthOn s.pulse.nrx4 ∧
    (List.replicate 4 32768).sum = [131072].sum ∧
    ¬split.enabled ∧ ¬whole.enabled ∧
    split.tuning = (0xc0, 0x06) ∧ whole.tuning = (0x00, 0x02) := by
  intro s split whole
  have hl : ¬Control.lengthOn s.pulse.nrx4 := by decide
  have hs : split.tone = { frequency := 0x6c0, enabled := false } :=
    (tone_clockAll hl _).trans (by decide)
  have hw : whole.tone = { frequency := 0x200, enabled := false } :=
    (tone_clockAll hl _).trans (by decide)
  refine ⟨rfl, hl, rfl, ?_, ?_, ?_, ?_⟩
  · exact Bool.eq_false_iff.mp (congrArg Tone.enabled hs)
  · exact Bool.eq_false_iff.mp (congrArg Tone.enabled hw)
  · exact ((tuning_clockAll_eq_iff (by decide)).mpr (congrArg Tone.frequency hs)).trans (by decide)
  · exact ((tuning_clockAll_eq_iff (by decide)).mpr (congrArg Tone.frequency hw)).trans (by decide)

end SweptPulse
end DotMatrix.Sound
