import DotMatrix.Interrupt
import DotMatrix.Proofs.Checked.Counter
import DotMatrix.Timer

namespace DotMatrix

namespace Timer

def checkedAdvance (t : Timer) (ticks : Nat) : Checked (Nat × Timer) := do
  let (div, divTicks) ← t.divTicks.eachEdge (some <| · + 1) ticks t.div
  let t := { t with div, divTicks }
  if t.running then
    let ((overflows, tima), timaTicks) ←
      t.timaTicks.eachEdge (some <| increment t.tma ·) ticks (0, t.tima)
    return (overflows, { t with tima, timaTicks })
  else
    return (0, t)

structure Orderly (t : Timer) : Prop where
  divTicks  : t.divTicks.Live
  timaTicks : t.timaTicks.Live

variable {t : Timer} {ticks : Nat}

theorem repeat_add_one (v : UInt8) (n : Nat) : Nat.repeat (· + 1) n v = v + UInt8.ofNat n := by
  induction n with
  | zero      => exact (UInt8.add_zero v).symm
  | succ n ih =>
    rw [Nat.repeat, ih, UInt8.ofNat_add, UInt8.add_assoc]
    rfl

theorem orderly_initial : Orderly {} :=
  ⟨.ofPeriod (by decide) (by decide), .ofPeriod (by decide) (by decide)⟩

theorem Orderly.checkedAdvance_eq (h : t.Orderly) (ht : ticks ≤ 24) :
    t.checkedAdvance ticks = some (t.advance ticks) := by
  rw [checkedAdvance, Counter.eachEdge_of_total (· + 1) (h.divTicks.fits ht), repeat_add_one]
  simp only [Option.bind_eq_bind, Option.bind_some, advance]
  rw [Counter.eachEdge_of_total (increment t.tma) (h.timaTicks.fits ht)]
  split <;> rfl

theorem Orderly.advance (h : t.Orderly) (ticks : Nat) : (t.advance ticks).snd.Orderly := by
  simp only [Timer.advance]
  split
  case isTrue  => exact ⟨h.divTicks.run ticks, h.timaTicks.run ticks⟩
  case isFalse => exact ⟨h.divTicks.run ticks, h.timaTicks⟩

theorem Orderly.resetDiv (h : t.Orderly) : t.resetDiv.Orderly :=
  ⟨h.divTicks.reset, h.timaTicks.reset⟩

theorem Orderly.setControl (h : t.Orderly) (v : UInt8) : (t.setControl v).Orderly := by
  refine ⟨h.divTicks, h.timaTicks.rearm ?_ ?_⟩
  all_goals
    simp only [period]
    split <;> decide

end Timer

namespace Interrupts

def checkedRequestIf (s : Interrupts) (c : Bool) (i : Interrupt) : Checked Interrupts :=
  if c then do
    let bit ← checkedBit i.line
    return { s with requested := s.requested ||| bit }
  else
    some s

def checkedAcknowledge (s : Interrupts) : Checked (Option (Fin 5) × Interrupts) :=
  match lowestLine? s.active with
  | none   => some (none, s)
  | some i => do
    let bit ← checkedBit i
    return (some i, { s with requested := s.requested &&& ~~~bit })

theorem checkedRequestIf_eq (s : Interrupts) (c : Bool) (i : Interrupt) :
    s.checkedRequestIf c i = some (s.requestIf c i) := by
  have hb : checkedBit i.line = some (bitIf true (.ofNat i.line)) := checkedBit_eq (by omega)
  simp only [checkedRequestIf, hb, requestIf]
  split <;> rfl

theorem checkedAcknowledge_eq (s : Interrupts) : s.checkedAcknowledge = some s.acknowledge := by
  have hb (i : Fin 5) : checkedBit i = some (bitIf true (.ofNat i)) := checkedBit_eq (by omega)
  simp only [checkedAcknowledge, hb, acknowledge]
  cases lowestLine? s.active <;> rfl

end Interrupts
end DotMatrix
