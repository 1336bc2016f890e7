import DotMatrix.Cpu.Step

namespace DotMatrix

-- A number of ticks that a step may take.
def StepCost (ticks : Nat) : Prop := 4 ∣ ticks ∧ ticks ≤ 24

instance (ticks : Nat) : Decidable (StepCost ticks) := inferInstanceAs (Decidable (_ ∧ _))

theorem Place.cost_of {P : Nat → Prop} {p : Place} {reg mem : Nat} (hr : P reg) (hm : P mem) :
    P (p.cost reg mem) := by
  cases p <;> assumption

theorem Operand.cost_of {P : Nat → Prop} {src : Operand} {reg mem : Nat} (hr : P reg) (hm : P mem) :
    P (src.cost reg mem) := by
  cases src
  case place => exact Place.cost_of hr hm
  case imm   => exact hm

theorem Instruction.stepCost (f : Flags) (i : Instruction) : StepCost (i.cost f) := by
  cases i
  case load dst src =>
    cases src
    case place => exact Place.cost_of (Place.cost_of (by decide) (by decide)) (by decide)
    case imm   => exact Place.cost_of (by decide) (by decide)
  case loadA a | storeA a => cases a <;> simp only [cost, Address.cost] <;> decide
  case alu => exact Operand.cost_of (by decide) (by decide)
  case inc | dec | shift | bit | res | set => exact Place.cost_of (by decide) (by decide)
  case jump | jumpRelative | call =>
    simp only [cost]
    split <;> decide
  case ret cond =>
    cases cond <;> simp only [cost]
    case none => decide
    case some => split <;> decide
  all_goals
    simp only [cost]
    decide

namespace Core

variable {β : Type} [Bus β] {s t : Core β} {ticks : Nat}

theorem executeNext_cost (h : s.executeNext = (.ok ticks, t)) : StepCost ticks := by
  simp only [executeNext] at h
  split at h
  · cases h
    exact Instruction.stepCost ..
  · split at h <;> cases h
    exact Instruction.stepCost ..

theorem step_cost (h : s.step = (.ok ticks, t)) : StepCost ticks := by
  simp only [step] at h
  split at h
  · cases h
    decide
  · split at h
    · cases h
      decide
    · exact executeNext_cost h

end Core
end DotMatrix
