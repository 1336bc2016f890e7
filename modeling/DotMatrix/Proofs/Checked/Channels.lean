import DotMatrix.Proofs.Checked.Modulation
import DotMatrix.Sound.Noise
import DotMatrix.Sound.Pulse
import DotMatrix.Sound.Wave

namespace DotMatrix.Sound

-- The step after one of those that a wave form goes round in.
def checkedTurn {width : Nat} (x : BitVec width) : Checked (BitVec width) := do
  let n ← Checked.add 8 x.toNat 1
  return .ofNat width n

theorem checkedTurn_eq {width : Nat} (h : width < 8) (x : BitVec width) :
    checkedTurn x = some (x + 1) := by
  have hp : 2 ^ width ≤ 2 ^ 7 := Nat.pow_le_pow_right (by decide) (Nat.le_of_lt_succ h)
  have hx := x.isLt
  rw [checkedTurn, Checked.add_eq (by omega)]
  refine congrArg some (BitVec.eq_of_toNat_eq ?_)
  simp

theorem repeat_turn {width : Nat} (x : BitVec width) (n : Nat) :
    Nat.repeat (· + 1) n x = x + .ofNat width n := by
  induction n with
  | zero      => exact (BitVec.add_zero x).symm
  | succ n ih =>
    rw [Nat.repeat, ih, BitVec.ofNat_add, BitVec.add_assoc]
    rfl

theorem eachEdge_turn {width ticks : Nat} {c : Counter} (hw : width < 8) (hc : c.Live)
    (ht : ticks ≤ 24) (x : BitVec width) :
    c.eachEdge checkedTurn ticks x =
      some (x + .ofNat width (c.run ticks).fst, (c.run ticks).snd) := by
  have he : (checkedTurn : BitVec width → _) = fun x => some (x + 1) := funext (checkedTurn_eq hw)
  rw [he, Counter.eachEdge_of_total (· + 1) (hc.fits ht), repeat_turn]

namespace Pulse

def checkedPeriod (p : Pulse) : Checked Nat := checkedPeriodOf 4 p.frequency

def checkedNewLength (p : Pulse) : Checked Counter := Length.checkedCounter 64 (bitField p.nrx1 0 6)

def checkedSetDuty (p : Pulse) (v : UInt8) : Checked Pulse := do
  let p := { p with nrx1 := v }
  let length ← p.checkedNewLength
  return { p with length }

def checkedSetVolume (p : Pulse) (v : UInt8) : Checked Pulse := do
  let envelope ← Envelope.checkedOfRegister v
  return { p with nrx2 := v, envelope }

def checkedRearm (p : Pulse) : Checked Pulse := do
  let period ← p.checkedPeriod
  return { p with ticks := p.ticks.rearm period }

def checkedSetLow (p : Pulse) (v : UInt8) : Checked Pulse := { p with nrx3 := v }.checkedRearm

def checkedTrigger (p : Pulse) : Checked Pulse := do
  let period ← p.checkedPeriod
  let length ← p.checkedNewLength
  let envelope ← Envelope.checkedOfRegister p.nrx2
  return { p with enabled := true, ticks := .ofPeriod period, length, envelope }

def checkedSetControl (p : Pulse) (v : UInt8) : Checked Pulse := do
  let p ← { p with nrx4 := Control.kept v }.checkedRearm
  if Control.triggers v then p.checkedTrigger else return p

-- The high bits of the frequency must fit their field.
def checkedSetFrequency (p : Pulse) (frequency : Nat) : Checked Pulse := do
  let high ← Checked.fit 3 (frequency / 0x100 % 8)
  let p := { p with nrx3 := .ofNat frequency, nrx4 := (p.nrx4 &&& 0xf8) ||| UInt8.ofNat high }
  p.checkedRearm

def checkedClock (p : Pulse) (ticks : Nat) : Checked Pulse :=
  if p.enabled then do
    let (dutyStep, counter) ← p.ticks.eachEdge checkedTurn ticks p.dutyStep
    let (expired, length) ← Length.checkedClock p.length (Control.lengthOn p.nrx4) ticks
    let envelope ← p.envelope.checkedClock ticks
    return { p with dutyStep, ticks := counter, length, envelope, enabled := !expired }
  else
    some p

structure Orderly (p : Pulse) : Prop where
  ticks    : p.enabled → p.ticks.Live
  length   : Length.Orderly p.length
  envelope : p.envelope.Orderly

variable {p : Pulse} {ticks : Nat}

theorem frequency_lt (p : Pulse) : p.frequency < 2048 := Sound.frequency_lt ..

theorem live_period (p : Pulse) : (Counter.ofPeriod p.period).Live :=
  live_ofPeriod_periodOf (by decide) (by decide) p.frequency_lt

theorem orderly_newLength (p : Pulse) : Length.Orderly p.newLength :=
  Length.orderly_counter (by decide) (bitField_lt p.nrx1 0 6)

theorem checkedPeriod_eq (p : Pulse) : p.checkedPeriod = some p.period :=
  checkedPeriodOf_eq (by decide) p.frequency_lt

theorem checkedNewLength_eq (p : Pulse) : p.checkedNewLength = some p.newLength :=
  Length.checkedCounter_eq (by decide) (bitField_lt p.nrx1 0 6)

theorem checkedSetDuty_eq (p : Pulse) (v : UInt8) : p.checkedSetDuty v = some (p.setDuty v) := by
  rw [checkedSetDuty, checkedNewLength_eq]
  rfl

theorem checkedSetVolume_eq (p : Pulse) (v : UInt8) :
    p.checkedSetVolume v = some (p.setVolume v) := by
  rw [checkedSetVolume, Envelope.checkedOfRegister_eq]
  rfl

theorem checkedRearm_eq (p : Pulse) : p.checkedRearm = some p.rearm := by
  rw [checkedRearm, checkedPeriod_eq]
  rfl

theorem checkedSetLow_eq (p : Pulse) (v : UInt8) : p.checkedSetLow v = some (p.setLow v) :=
  checkedRearm_eq _

theorem checkedTrigger_eq (p : Pulse) : p.checkedTrigger = some p.trigger := by
  rw [checkedTrigger, checkedPeriod_eq, checkedNewLength_eq, Envelope.checkedOfRegister_eq]
  rfl

theorem checkedSetControl_eq (p : Pulse) (v : UInt8) :
    p.checkedSetControl v = some (p.setControl v) := by
  rw [checkedSetControl, checkedRearm_eq]
  simp only [setControl, Option.bind_eq_bind, Option.bind_some, checkedTrigger_eq]
  split <;> rfl

theorem checkedSetFrequency_eq (p : Pulse) (frequency : Nat) :
    p.checkedSetFrequency frequency = some (p.setFrequency frequency) := by
  have hh : frequency / 0x100 % 8 < 1 <<< 3 := Nat.mod_lt _ (by decide)
  rw [checkedSetFrequency, Checked.fit_eq hh]
  exact checkedRearm_eq _

theorem orderly_initial : Orderly {} :=
  ⟨nofun, Length.orderly_counter (by decide) (by decide), Envelope.orderly_initial⟩

theorem Orderly.setDuty (h : p.Orderly) (v : UInt8) : (p.setDuty v).Orderly :=
  ⟨h.ticks, orderly_newLength _, h.envelope⟩

theorem Orderly.setVolume (h : p.Orderly) (v : UInt8) : (p.setVolume v).Orderly :=
  ⟨h.ticks, h.length, Envelope.orderly_ofRegister v⟩

theorem Orderly.rearm (h : p.Orderly) : p.rearm.Orderly where
  ticks he :=
    have hl := p.live_period
    (h.ticks he).rearm hl.period_pos hl.period_le
  length   := h.length
  envelope := h.envelope

theorem Orderly.setLow (h : p.Orderly) (v : UInt8) : (p.setLow v).Orderly :=
  rearm ⟨h.ticks, h.length, h.envelope⟩

theorem orderly_trigger (p : Pulse) : p.trigger.Orderly :=
  ⟨fun _ => p.live_period, p.orderly_newLength, Envelope.orderly_ofRegister _⟩

theorem Orderly.setControl (h : p.Orderly) (v : UInt8) : (p.setControl v).Orderly := by
  simp only [Pulse.setControl]
  split
  case isTrue  => exact orderly_trigger _
  case isFalse => exact rearm ⟨h.ticks, h.length, h.envelope⟩

theorem Orderly.setFrequency (h : p.Orderly) (frequency : Nat) :
    (p.setFrequency frequency).Orderly :=
  rearm ⟨h.ticks, h.length, h.envelope⟩

theorem Orderly.checkedClock_eq (h : p.Orderly) (ht : ticks ≤ 24) :
    p.checkedClock ticks = some (p.clock ticks) := by
  simp only [checkedClock, clock]
  split
  case isTrue he =>
    rw [eachEdge_turn (by decide) (h.ticks he) ht]
    simp only [Option.bind_eq_bind, Option.bind_some]
    rw [h.length.checkedClock_eq _ ht, h.envelope.checkedClock_eq ht]
    rfl
  case isFalse => rfl

theorem Orderly.clock (h : p.Orderly) (ht : ticks ≤ 24) : (p.clock ticks).Orderly := by
  simp only [Pulse.clock]
  split
  case isTrue he =>
    exact ⟨fun _ => (h.ticks he).run ticks, h.length.clock _ ht, h.envelope.clock ticks⟩
  case isFalse => exact h

theorem Orderly.disable (h : p.Orderly) : Orderly { p with enabled := false } :=
  ⟨nofun, h.length, h.envelope⟩

end Pulse

namespace SweptPulse

def checkedSetSweep (s : SweptPulse) (v : UInt8) : Checked SweptPulse := do
  let sweep ← s.sweep.checkedSetRegister v
  return { s with sweep }

def checkedSetControl (s : SweptPulse) (v : UInt8) : Checked SweptPulse := do
  let pulse ← s.pulse.checkedSetControl v
  let sweep ← if Control.triggers v then s.sweep.checkedTrigger else pure s.sweep
  return { pulse, sweep }

def checkedClock (s : SweptPulse) (ticks : Nat) : Checked SweptPulse :=
  if s.pulse.enabled then do
    let pulse ← s.pulse.checkedClock ticks
    let (action, sweep) ← s.sweep.checkedClock ticks pulse.frequency
    match action with
    | .nothing        => return { pulse, sweep }
    | .disable        => return { pulse := { pulse with enabled := false }, sweep }
    | .setFrequency f =>
      let pulse ← pulse.checkedSetFrequency f
      return { pulse, sweep }
  else
    some s

structure Orderly (s : SweptPulse) : Prop where
  pulse : s.pulse.Orderly
  sweep : s.sweep.Orderly

variable {s : SweptPulse} {ticks : Nat}

theorem checkedSetSweep_eq (s : SweptPulse) (v : UInt8) :
    s.checkedSetSweep v = some (s.setSweep v) := by
  rw [checkedSetSweep, Sweep.checkedSetRegister_eq]
  rfl

theorem checkedSetControl_eq (s : SweptPulse) (v : UInt8) :
    s.checkedSetControl v = some (s.setControl v) := by
  rw [checkedSetControl, Pulse.checkedSetControl_eq, Sweep.checkedTrigger_eq]
  simp only [setControl, Option.bind_eq_bind, Option.bind_some]
  split <;> rfl

theorem orderly_initial : Orderly {} :=
  ⟨Pulse.orderly_initial, Sweep.orderly_initial⟩

theorem Orderly.setSweep (h : s.Orderly) (v : UInt8) : (s.setSweep v).Orderly :=
  ⟨h.pulse, h.sweep.setRegister v⟩

theorem Orderly.setControl (h : s.Orderly) (v : UInt8) : (s.setControl v).Orderly := by
  refine ⟨h.pulse.setControl v, ?_⟩
  simp only [SweptPulse.setControl]
  split
  case isTrue  => exact Sweep.orderly_trigger _
  case isFalse => exact h.sweep

theorem Orderly.checkedClock_eq (h : s.Orderly) (ht : ticks ≤ 24) :
    s.checkedClock ticks = some (s.clock ticks) := by
  have hf := Nat.le_of_lt_succ (s.pulse.clock ticks).frequency_lt
  simp only [checkedClock, clock]
  split
  case isTrue =>
    rw [h.pulse.checkedClock_eq ht]
    simp only [Option.bind_eq_bind, Option.bind_some]
    rw [h.sweep.checkedClock_eq ht hf]
    simp only [Option.bind_some, Pulse.checkedSetFrequency_eq]
    cases (s.sweep.clock ticks (s.pulse.clock ticks).frequency).fst <;> rfl
  case isFalse => rfl

theorem Orderly.clock (h : s.Orderly) (ht : ticks ≤ 24) : (s.clock ticks).Orderly := by
  have hp := h.pulse.clock ht
  have hs := h.sweep.clock ticks (s.pulse.clock ticks).frequency
  simp only [SweptPulse.clock]
  split
  case isTrue =>
    split
    case h_1 => exact ⟨hp, hs⟩
    case h_2 => exact ⟨hp.disable, hs⟩
    case h_3 => exact ⟨hp.setFrequency _, hs⟩
  case isFalse => exact h

end SweptPulse

namespace Wave

def checkedPeriod (w : Wave) : Checked Nat := checkedPeriodOf 2 w.frequency

def checkedNewLength (w : Wave) : Checked Counter := Length.checkedCounter 256 w.nr31.toNat

def checkedSetLength (w : Wave) (v : UInt8) : Checked Wave := do
  let w := { w with nr31 := v }
  let length ← w.checkedNewLength
  return { w with length }

def checkedRearm (w : Wave) : Checked Wave := do
  let period ← w.checkedPeriod
  return { w with ticks := w.ticks.rearm period }

def checkedSetLow (w : Wave) (v : UInt8) : Checked Wave := { w with nr33 := v }.checkedRearm

def checkedTrigger (w : Wave) : Checked Wave := do
  let period ← w.checkedPeriod
  let length ← w.checkedNewLength
  return { w with enabled := w.converterOn, position := 0, ticks := .ofPeriod period, length }

def checkedSetControl (w : Wave) (v : UInt8) : Checked Wave := do
  let w ← { w with nr34 := Control.kept v }.checkedRearm
  if Control.triggers v then w.checkedTrigger else return w

def checkedRawSample (w : Wave) : Checked UInt8 := do
  let i ← Checked.index 16 (w.position.toNat / 2)
  let b := w.ram.get i
  return if w.position.toNat % 2 = 0 then b >>> 4 else b &&& 0xf

def checkedAmplitude (w : Wave) : Checked Float32 := do
  let level := bitField w.nr32 5 2
  if level = 0 then
    return 0.0
  else
    let sample ← w.checkedRawSample
    let level ← Checked.sub level 1
    let level ← Checked.shift 8 level
    return (sample >>> .ofNat level).toFloat32 / 7.5 - 1.0

def checkedClock (w : Wave) (ticks : Nat) : Checked Wave :=
  if w.enabled then do
    let (position, counter) ← w.ticks.eachEdge checkedTurn ticks w.position
    let (expired, length) ← Length.checkedClock w.length (Control.lengthOn w.nr34) ticks
    return { w with position, ticks := counter, length, enabled := !expired }
  else
    some w

structure Orderly (w : Wave) : Prop where
  ticks  : w.enabled → w.ticks.Live
  length : Length.Orderly w.length

variable {w : Wave} {ticks : Nat}

theorem live_period (w : Wave) : (Counter.ofPeriod w.period).Live :=
  live_ofPeriod_periodOf (by decide) (by decide) (Sound.frequency_lt ..)

theorem orderly_newLength (w : Wave) : Length.Orderly w.newLength :=
  Length.orderly_counter (by decide) w.nr31.toNat_lt

theorem checkedPeriod_eq (w : Wave) : w.checkedPeriod = some w.period :=
  checkedPeriodOf_eq (by decide) (Sound.frequency_lt ..)

theorem checkedNewLength_eq (w : Wave) : w.checkedNewLength = some w.newLength :=
  Length.checkedCounter_eq (by decide) w.nr31.toNat_lt

theorem checkedSetLength_eq (w : Wave) (v : UInt8) :
    w.checkedSetLength v = some (w.setLength v) := by
  rw [checkedSetLength, checkedNewLength_eq]
  rfl

theorem checkedRearm_eq (w : Wave) : w.checkedRearm = some w.rearm := by
  rw [checkedRearm, checkedPeriod_eq]
  rfl

theorem checkedSetLow_eq (w : Wave) (v : UInt8) : w.checkedSetLow v = some (w.setLow v) :=
  checkedRearm_eq _

theorem checkedTrigger_eq (w : Wave) : w.checkedTrigger = some w.trigger := by
  rw [checkedTrigger, checkedPeriod_eq, checkedNewLength_eq]
  rfl

theorem checkedSetControl_eq (w : Wave) (v : UInt8) :
    w.checkedSetControl v = some (w.setControl v) := by
  rw [checkedSetControl, checkedRearm_eq]
  simp only [setControl, Option.bind_eq_bind, Option.bind_some, checkedTrigger_eq]
  split <;> rfl

theorem checkedRawSample_eq (w : Wave) : w.checkedRawSample = some w.rawSample := by
  have hp := w.position.isLt
  rw [checkedRawSample, Checked.index_eq (by omega)]
  rfl

theorem checkedAmplitude_eq (w : Wave) : w.checkedAmplitude = some w.amplitude := by
  have hl : bitField w.nr32 5 2 < 4 := bitField_lt w.nr32 5 2
  simp only [checkedAmplitude, amplitude, checkedRawSample_eq]
  cases hn : bitField w.nr32 5 2 with
  | zero => rfl
  | succ level =>
    rw [Checked.sub_eq (by omega)]
    simp only [Option.bind_eq_bind, Option.bind_some]
    rw [Checked.shift_eq (by omega)]
    rfl

-- Without power, and so at first as well, the channel is silent.
theorem orderly_powerOff (w : Wave) : w.powerOff.Orderly :=
  ⟨nofun, Length.orderly_counter (by decide) (by decide)⟩

theorem Orderly.setConverter (h : w.Orderly) (v : UInt8) : (w.setConverter v).Orderly :=
  ⟨fun he => h.ticks (Bool.and_eq_true_iff.mp he).left, h.length⟩

theorem Orderly.setLength (h : w.Orderly) (v : UInt8) : (w.setLength v).Orderly :=
  ⟨h.ticks, orderly_newLength _⟩

theorem Orderly.rearm (h : w.Orderly) : w.rearm.Orderly where
  ticks he :=
    have hl := w.live_period
    (h.ticks he).rearm hl.period_pos hl.period_le
  length   := h.length

theorem Orderly.setLow (h : w.Orderly) (v : UInt8) : (w.setLow v).Orderly :=
  rearm ⟨h.ticks, h.length⟩

theorem orderly_trigger (w : Wave) : w.trigger.Orderly :=
  ⟨fun _ => w.live_period, w.orderly_newLength⟩

theorem Orderly.setControl (h : w.Orderly) (v : UInt8) : (w.setControl v).Orderly := by
  simp only [Wave.setControl]
  split
  case isTrue  => exact orderly_trigger _
  case isFalse => exact rearm ⟨h.ticks, h.length⟩

theorem Orderly.checkedClock_eq (h : w.Orderly) (ht : ticks ≤ 24) :
    w.checkedClock ticks = some (w.clock ticks) := by
  simp only [checkedClock, clock]
  split
  case isTrue he =>
    rw [eachEdge_turn (by decide) (h.ticks he) ht]
    simp only [Option.bind_eq_bind, Option.bind_some]
    rw [h.length.checkedClock_eq _ ht]
    rfl
  case isFalse => rfl

theorem Orderly.clock (h : w.Orderly) (ht : ticks ≤ 24) : (w.clock ticks).Orderly := by
  simp only [Wave.clock]
  split
  case isTrue he => exact ⟨fun _ => (h.ticks he).run ticks, h.length.clock _ ht⟩
  case isFalse   => exact h

end Wave

namespace Noise

def checkedPeriod (n : Noise) : Checked Nat := do
  let divisor := match bitField n.nr43 0 3 with
    | 0        => 8
    | code + 1 => 16 * (code + 1)
  let shift ← Checked.shift 64 (bitField n.nr43 4 4)
  return divisor <<< shift

def checkedNewLength (n : Noise) : Checked Counter := Length.checkedCounter 64 (bitField n.nr41 0 6)

def checkedSetLength (n : Noise) (v : UInt8) : Checked Noise := do
  let n := { n with nr41 := v }
  let length ← n.checkedNewLength
  return { n with length }

def checkedSetVolume (n : Noise) (v : UInt8) : Checked Noise := do
  let envelope ← Envelope.checkedOfRegister v
  return { n with nr42 := v, envelope }

def checkedSetClock (n : Noise) (v : UInt8) : Checked Noise := do
  let n := { n with nr43 := v }
  let period ← n.checkedPeriod
  return { n with ticks := n.ticks.rearm period }

def checkedTrigger (n : Noise) : Checked Noise := do
  let period ← n.checkedPeriod
  let length ← n.checkedNewLength
  let envelope ← Envelope.checkedOfRegister n.nr42
  return { n with enabled := true, lfsr := {}, ticks := .ofPeriod period, length, envelope }

def checkedSetControl (n : Noise) (v : UInt8) : Checked Noise :=
  let n := { n with nr44 := Control.kept v }
  if Control.triggers v then n.checkedTrigger else some n

def checkedClock (n : Noise) (ticks : Nat) : Checked Noise :=
  if n.enabled then do
    let (lfsr, counter) ← n.ticks.eachEdge (some <| ·.shift n.shortMode) ticks n.lfsr
    let (expired, length) ← Length.checkedClock n.length (Control.lengthOn n.nr44) ticks
    let envelope ← n.envelope.checkedClock ticks
    return { n with lfsr, ticks := counter, length, envelope, enabled := !expired }
  else
    some n

structure Orderly (n : Noise) : Prop where
  ticks    : n.enabled → n.ticks.Live
  length   : Length.Orderly n.length
  envelope : n.envelope.Orderly

variable {n : Noise} {ticks : Nat}

theorem live_period (n : Noise) : (Counter.ofPeriod n.period).Live := by
  have hs : bitField n.nr43 4 4 < 16 := bitField_lt n.nr43 4 4
  have hc : bitField n.nr43 0 3 < 8 := bitField_lt n.nr43 0 3
  have hb : 2 ^ bitField n.nr43 4 4 ≤ 2 ^ 15 :=
    Nat.pow_le_pow_right (by decide) (Nat.le_of_lt_succ hs)
  have hp := Nat.two_pow_pos (bitField n.nr43 4 4)
  simp only [period, Nat.shiftLeft_eq]
  split
  case h_1 => exact .ofPeriod (by omega) (by omega)
  case h_2 code he =>
    have hm : 16 * (code + 1) * 2 ^ bitField n.nr43 4 4 ≤ 112 * 2 ^ 15 :=
      Nat.mul_le_mul (by omega) hb
    exact .ofPeriod (Nat.mul_pos (Nat.mul_pos (by decide) code.succ_pos) hp)
      (Nat.le_trans hm (by decide))

theorem orderly_newLength (n : Noise) : Length.Orderly n.newLength :=
  Length.orderly_counter (by decide) (bitField_lt n.nr41 0 6)

theorem checkedPeriod_eq (n : Noise) : n.checkedPeriod = some n.period := by
  have hs : bitField n.nr43 4 4 < 16 := bitField_lt n.nr43 4 4
  simp only [checkedPeriod]
  rw [Checked.shift_eq (by omega)]
  rfl

theorem checkedNewLength_eq (n : Noise) : n.checkedNewLength = some n.newLength :=
  Length.checkedCounter_eq (by decide) (bitField_lt n.nr41 0 6)

theorem checkedSetLength_eq (n : Noise) (v : UInt8) :
    n.checkedSetLength v = some (n.setLength v) := by
  rw [checkedSetLength, checkedNewLength_eq]
  rfl

theorem checkedSetVolume_eq (n : Noise) (v : UInt8) :
    n.checkedSetVolume v = some (n.setVolume v) := by
  rw [checkedSetVolume, Envelope.checkedOfRegister_eq]
  rfl

theorem checkedSetClock_eq (n : Noise) (v : UInt8) : n.checkedSetClock v = some (n.setClock v) := by
  rw [checkedSetClock, checkedPeriod_eq]
  rfl

theorem checkedTrigger_eq (n : Noise) : n.checkedTrigger = some n.trigger := by
  rw [checkedTrigger, checkedPeriod_eq, checkedNewLength_eq, Envelope.checkedOfRegister_eq]
  rfl

theorem checkedSetControl_eq (n : Noise) (v : UInt8) :
    n.checkedSetControl v = some (n.setControl v) := by
  simp only [checkedSetControl, setControl, checkedTrigger_eq]
  split <;> rfl

theorem orderly_initial : Orderly {} :=
  ⟨nofun, Length.orderly_counter (by decide) (by decide), Envelope.orderly_initial⟩

theorem Orderly.setLength (h : n.Orderly) (v : UInt8) : (n.setLength v).Orderly :=
  ⟨h.ticks, orderly_newLength _, h.envelope⟩

theorem Orderly.setVolume (h : n.Orderly) (v : UInt8) : (n.setVolume v).Orderly :=
  ⟨h.ticks, h.length, Envelope.orderly_ofRegister v⟩

theorem Orderly.setClock (h : n.Orderly) (v : UInt8) : (n.setClock v).Orderly where
  ticks he :=
    have hl := live_period { n with nr43 := v }
    (h.ticks he).rearm hl.period_pos hl.period_le
  length   := h.length
  envelope := h.envelope

theorem orderly_trigger (n : Noise) : n.trigger.Orderly :=
  ⟨fun _ => n.live_period, n.orderly_newLength, Envelope.orderly_ofRegister _⟩

theorem Orderly.setControl (h : n.Orderly) (v : UInt8) : (n.setControl v).Orderly := by
  simp only [Noise.setControl]
  split
  case isTrue  => exact orderly_trigger _
  case isFalse => exact ⟨h.ticks, h.length, h.envelope⟩

theorem Orderly.checkedClock_eq (h : n.Orderly) (ht : ticks ≤ 24) :
    n.checkedClock ticks = some (n.clock ticks) := by
  simp only [checkedClock, clock]
  split
  case isTrue he =>
    rw [Counter.eachEdge_of_total _ ((h.ticks he).fits ht)]
    simp only [Option.bind_eq_bind, Option.bind_some]
    rw [h.length.checkedClock_eq _ ht, h.envelope.checkedClock_eq ht]
    rfl
  case isFalse => rfl

theorem Orderly.clock (h : n.Orderly) (ht : ticks ≤ 24) : (n.clock ticks).Orderly := by
  simp only [Noise.clock]
  split
  case isTrue he =>
    exact ⟨fun _ => (h.ticks he).run ticks, h.length.clock _ ht, h.envelope.clock ticks⟩
  case isFalse => exact h

end Noise
end DotMatrix.Sound
