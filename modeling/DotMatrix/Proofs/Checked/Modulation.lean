import DotMatrix.Proofs.Checked.Counter
import DotMatrix.Sound.Envelope
import DotMatrix.Sound.Length
import DotMatrix.Sound.Period
import DotMatrix.Sound.Sweep

namespace DotMatrix.Sound

theorem frequency_lt (low control : UInt8) : frequency low control < 2048 := by
  have hl := low.toNat_lt
  have hc := bitField_lt control 0 3
  simp only [frequency]
  omega

def checkedPeriodOf (unit frequency : Nat) : Checked Nat := do
  let steps ← Checked.sub 2048 frequency
  Checked.mul 64 steps unit

theorem checkedPeriodOf_eq {unit frequency : Nat} (hu : unit ≤ 4) (hf : frequency < 2048) :
    checkedPeriodOf unit frequency = some (periodOf unit frequency) := by
  have hm : (2048 - frequency) * unit ≤ 2048 * 4 := Nat.mul_le_mul (Nat.sub_le _ _) hu
  rw [checkedPeriodOf, Checked.sub_eq (Nat.le_of_lt hf)]
  exact Checked.mul_eq (by omega)

theorem live_ofPeriod_periodOf {unit frequency : Nat} (hp : 0 < unit) (hu : unit ≤ 4)
    (hf : frequency < 2048) : (Counter.ofPeriod (periodOf unit frequency)).Live := by
  have hm : (2048 - frequency) * unit ≤ 2048 * 4 := Nat.mul_le_mul (Nat.sub_le _ _) hu
  exact .ofPeriod (Nat.mul_pos (Nat.sub_pos_of_lt hf) hp) (Nat.le_trans hm (by decide))

namespace Length

def checkedCounter (maximum initial : Nat) : Checked Counter := do
  let units ← Checked.sub maximum initial
  let period ← Checked.mul 64 units step
  return .ofPeriod period

def checkedClock (c : Counter) (on : Bool) (ticks : Nat) : Checked (Bool × Counter) :=
  if on then c.checkedAdvance ticks else some (false, c)

-- A length that has not run out.
structure Orderly (c : Counter) : Prop where
  elapsed_lt : c.elapsed < c.period
  period_ge  : step ≤ c.period
  period_le  : c.period ≤ 1 <<< 22

variable {c : Counter} {maximum initial ticks : Nat}

theorem checkedCounter_eq (hm : maximum ≤ 256) (hi : initial < maximum) :
    checkedCounter maximum initial = some (counter maximum initial) := by
  have hs : (maximum - initial) * step ≤ 256 * step :=
    Nat.mul_le_mul_right step (Nat.le_trans (Nat.sub_le _ _) hm)
  rw [checkedCounter, Checked.sub_eq (Nat.le_of_lt hi)]
  simp only [Option.bind_eq_bind, Option.bind_some]
  rw [Checked.mul_eq (Nat.lt_of_le_of_lt hs (by decide))]
  rfl

theorem orderly_counter (hm : maximum ≤ 256) (hi : initial < maximum) :
    Orderly (counter maximum initial) := by
  have hl : 1 * step ≤ (maximum - initial) * step :=
    Nat.mul_le_mul_right step (Nat.sub_pos_of_lt hi)
  have hs : (maximum - initial) * step ≤ 256 * step :=
    Nat.mul_le_mul_right step (Nat.le_trans (Nat.sub_le _ _) hm)
  exact ⟨Nat.lt_of_lt_of_le (by decide : 0 < 1 * step) hl, hl, Nat.le_trans hs (by decide)⟩

theorem Orderly.checkedClock_eq (h : Orderly c) (on : Bool) (ht : ticks ≤ 24) :
    checkedClock c on ticks = some (clock c on ticks) := by
  have := h.elapsed_lt
  have := h.period_le
  simp only [checkedClock, clock]
  split
  case isTrue  => exact Counter.checkedAdvance_eq (by omega)
  case isFalse => rfl

-- No step is long enough to complete a length twice.
theorem Orderly.clock (h : Orderly c) (on : Bool) (ht : ticks ≤ 24) :
    Orderly (Length.clock c on ticks).snd := by
  have hl := h.elapsed_lt
  have hg : 16384 ≤ c.period := h.period_ge
  simp only [Length.clock, Counter.advance]
  split
  case isFalse => exact h
  case isTrue =>
    split
    case isTrue =>
      refine ⟨?_, h.period_ge, h.period_le⟩
      simp only [Counter.take, Counter.accrue]
      omega
    case isFalse hd =>
      refine ⟨?_, h.period_ge, h.period_le⟩
      exact Nat.lt_of_not_le fun hn => hd ⟨Nat.zero_lt_of_lt hl, hn⟩

end Length

namespace Envelope

def checkedOfRegister (b : UInt8) : Checked Envelope := do
  let pace := bitField b 0 3
  let ticks ←
    if pace = 0 then
      pure none
    else
      let period ← Checked.mul 64 pace step
      pure (some (.ofPeriod period))
  return { initial := bitField b 4 4, volume := bitField b 4 4, increase := testBit b 3, ticks }

def checkedMove (increase : Bool) (volume : Nat) : Checked Nat :=
  if increase then
    if volume < loudest then Checked.add 8 volume 1 else some volume
  else
    if 0 < volume then Checked.sub volume 1 else some volume

def checkedClock (e : Envelope) (ticks : Nat) : Checked Envelope :=
  match e.ticks with
  | none => some e
  | some counter => do
    let (volume, counter) ← counter.eachEdge (checkedMove e.increase) ticks e.volume
    return { e with ticks := some counter, volume }

structure Orderly (e : Envelope) : Prop where
  volume_le : e.volume ≤ loudest
  ticks     : ∀ c ∈ e.ticks, c.Live

variable {e : Envelope} {ticks : Nat}

theorem checkedOfRegister_eq (b : UInt8) : checkedOfRegister b = some (ofRegister b) := by
  have hp : bitField b 0 3 < 8 := bitField_lt b 0 3
  simp only [checkedOfRegister, ofRegister]
  split
  case isTrue => rfl
  case isFalse =>
    rw [Checked.mul_eq (by simp only [step]; omega)]
    rfl

theorem orderly_ofRegister (b : UInt8) : (ofRegister b).Orderly where
  volume_le := Nat.le_of_lt_succ (bitField_lt b 4 4)
  ticks c hc := by
    have hp : bitField b 0 3 < 8 := bitField_lt b 0 3
    simp only [ofRegister] at hc
    split at hc
    case isTrue => cases hc
    case isFalse =>
      cases hc
      refine .ofPeriod ?_ ?_ <;> simp only [step] <;> omega

theorem orderly_initial : Orderly {} :=
  ⟨Nat.zero_le _, nofun⟩

theorem checkedMove_eq {volume : Nat} (increase : Bool) (h : volume ≤ loudest) :
    checkedMove increase volume = some (move increase volume) := by
  have h : volume ≤ 15 := h
  cases increase with
  | true =>
    simp only [checkedMove, move, if_true]
    split
    case isTrue hv =>
      rw [Checked.add_eq (by omega), Nat.min_eq_right hv]
    case isFalse hv =>
      rw [Nat.min_eq_left (by omega), Nat.le_antisymm h (Nat.le_of_not_lt hv)]
      rfl
  | false =>
    simp only [checkedMove, move, Bool.false_eq_true, if_false]
    split
    case isTrue hv  => exact Checked.sub_eq hv
    case isFalse hv => exact congrArg some (by omega)

theorem move_le {volume : Nat} (increase : Bool) (h : volume ≤ loudest) :
    move increase volume ≤ loudest := by
  simp only [move]
  split
  case isTrue  => exact Nat.min_le_left ..
  case isFalse => exact Nat.le_trans (Nat.sub_le ..) h

theorem repeat_move_le {volume : Nat} (increase : Bool) (h : volume ≤ loudest) (n : Nat) :
    Nat.repeat (move increase) n volume ≤ loudest := by
  induction n with
  | zero      => exact h
  | succ n ih => exact move_le increase ih

theorem Orderly.checkedClock_eq (h : e.Orderly) (ht : ticks ≤ 24) :
    e.checkedClock ticks = some (e.clock ticks) := by
  simp only [checkedClock, clock]
  cases hc : e.ticks with
  | none => rfl
  | some c =>
    have hl := h.ticks c hc
    dsimp only
    rw [Counter.eachEdge_eq (hl.fits ht) fun k _ =>
      checkedMove_eq e.increase (repeat_move_le e.increase h.volume_le k)]
    rfl

theorem Orderly.clock (h : e.Orderly) (ticks : Nat) : (e.clock ticks).Orderly := by
  simp only [Envelope.clock]
  cases hc : e.ticks with
  | none => exact h
  | some c =>
    refine ⟨repeat_move_le _ h.volume_le _, fun d hd => ?_⟩
    cases hd
    exact (h.ticks c hc).run ticks

end Envelope

namespace Sweep

def checkedPeriod (s : Sweep) : Checked Nat := Checked.mul 64 (bitField s.nr10 4 3) step

def checkedSetRegister (s : Sweep) (v : UInt8) : Checked Sweep := do
  let s := { s with nr10 := v }
  let period ← s.checkedPeriod
  return match period, s.ticks with
    | 0, _           => { s with ticks := none }
    | period, some c => { s with ticks := some (c.rearm period) }
    | period, none   => { s with ticks := some (.ofPeriod period) }

def checkedTrigger (s : Sweep) : Checked Sweep := do
  let period ← s.checkedPeriod
  return { s with ticks := if period = 0 then none else some (.ofPeriod period) }

def checkedNext? (s : Sweep) (frequency : Nat) : Checked (Option Nat) := do
  let slope ← Checked.shift 16 (bitField s.nr10 0 3)
  let offset := frequency >>> slope
  let next ←
    if testBit s.nr10 3 then
      if offset ≤ frequency then some (frequency - offset) else return none
    else
      Checked.add 16 frequency offset
  return if 1 ≤ next ∧ next ≤ 0x7ff then some next else none

def checkedFollow (s : Sweep) (frequency : Nat) (soFar : Action) : Nat → Checked Action
  | 0 => some soFar
  | steps + 1 => do
    match ← s.checkedNext? frequency with
    | some next => s.checkedFollow next (.setFrequency next) steps
    | none      => return .disable

def checkedClock (s : Sweep) (ticks frequency : Nat) : Checked (Action × Sweep) :=
  match s.ticks with
  | none => some (.nothing, s)
  | some counter => do
    let (edges, counter) ← counter.countEdges ticks
    let action ← s.checkedFollow frequency .nothing edges
    return (action, { s with ticks := some counter })

def Orderly (s : Sweep) : Prop := ∀ c ∈ s.ticks, c.Live

variable {s : Sweep} {ticks frequency : Nat}

theorem period_le (s : Sweep) : s.period ≤ 1 <<< 22 := by
  have hp : bitField s.nr10 4 3 < 8 := bitField_lt s.nr10 4 3
  simp only [period, step]
  omega

theorem checkedPeriod_eq (s : Sweep) : s.checkedPeriod = some s.period :=
  Checked.mul_eq (Nat.lt_of_le_of_lt s.period_le (by decide))

theorem checkedSetRegister_eq (s : Sweep) (v : UInt8) :
    s.checkedSetRegister v = some (s.setRegister v) := by
  rw [checkedSetRegister, checkedPeriod_eq]
  rfl

theorem checkedTrigger_eq (s : Sweep) : s.checkedTrigger = some s.trigger := by
  rw [checkedTrigger, checkedPeriod_eq]
  rfl

theorem orderly_initial : Orderly {} := nofun

theorem Orderly.setRegister (h : s.Orderly) (v : UInt8) : (s.setRegister v).Orderly := by
  have hl := period_le { s with nr10 := v }
  intro c hc
  simp only [Sweep.setRegister] at hc
  split at hc
  case h_1 => cases hc
  case h_2 d hd hn =>
    cases hc
    exact (h d hd).rearm (Nat.pos_of_ne_zero hn) hl
  case h_3 _ hn =>
    cases hc
    exact .ofPeriod (Nat.pos_of_ne_zero hn) hl

theorem orderly_trigger (s : Sweep) : s.trigger.Orderly := by
  intro c hc
  simp only [trigger] at hc
  split at hc
  case isTrue => cases hc
  case isFalse hn =>
    cases hc
    exact .ofPeriod (Nat.pos_of_ne_zero hn) s.period_le

theorem next?_le {next : Nat} (h : s.next? frequency = some next) : next ≤ 0x7ff := by
  simp only [next?, Option.ite_none_right_eq_some] at h
  exact Option.some.inj h.right ▸ h.left.right

theorem checkedNext?_eq (s : Sweep) (h : frequency ≤ 0x7ff) :
    s.checkedNext? frequency = some (s.next? frequency) := by
  have hp : bitField s.nr10 0 3 < 8 := bitField_lt s.nr10 0 3
  have ho : frequency >>> bitField s.nr10 0 3 ≤ frequency := Nat.shiftRight_le ..
  rw [checkedNext?, Checked.shift_eq (by omega)]
  simp only [next?, ho, if_true, Option.bind_eq_bind, Option.bind_some]
  split
  case isTrue => rfl
  case isFalse =>
    rw [Checked.add_eq (by omega)]
    rfl

theorem checkedFollow_eq (s : Sweep) (h : frequency ≤ 0x7ff) (soFar : Action) (steps : Nat) :
    s.checkedFollow frequency soFar steps = some (s.follow frequency soFar steps) := by
  induction steps generalizing frequency soFar with
  | zero => rfl
  | succ steps ih =>
    rw [checkedFollow, checkedNext?_eq s h, follow]
    cases hn : s.next? frequency with
    | none      => rfl
    | some next => exact ih (next?_le hn) _

theorem Orderly.checkedClock_eq (h : s.Orderly) (ht : ticks ≤ 24) (hf : frequency ≤ 0x7ff) :
    s.checkedClock ticks frequency = some (s.clock ticks frequency) := by
  simp only [checkedClock, clock]
  cases hc : s.ticks with
  | none => rfl
  | some c =>
    dsimp only
    rw [(h c hc).countEdges_eq ht]
    simp only [Option.bind_eq_bind, Option.bind_some]
    rw [checkedFollow_eq s hf]
    rfl

theorem Orderly.clock (h : s.Orderly) (ticks frequency : Nat) :
    (s.clock ticks frequency).snd.Orderly := by
  simp only [Sweep.clock]
  cases hc : s.ticks with
  | none => exact h
  | some c =>
    intro d hd
    cases hd
    exact (h c hc).run ticks

end Sweep
end DotMatrix.Sound
