import DotMatrix.Proofs.Cpu.KeptFlags

namespace DotMatrix

namespace Instruction

-- The bytes that its opcode takes.
def opcodeBytes : Instruction → Nat
  | shift _ _ | bit _ _ | res _ _ | set _ _ => 2
  | _                                       => 1

theorem opcodeBytes_decode (opcode : UInt8) : ∀ i ∈ decode opcode, i.opcodeBytes = 1 := by
  revert opcode
  decide +kernel

theorem opcodeBytes_decodeSecond (opcode : UInt8) : (decodeSecond opcode).opcodeBytes = 2 := by
  simp only [decodeSecond]
  split <;> rfl

end Instruction

namespace Core

variable {β : Type} [Bus β] (s : Core β)

def SameRegisters (s t : Core β) : Prop :=
  t.cpu = { s.cpu with pc := t.cpu.pc, halted := t.cpu.halted }

-- The state once some bytes of the program are fetched.
def fetches (s : Core β) : Nat → Core β
  | 0     => s
  | n + 1 => s.fetch.2.fetches n

theorem sameRegisters_fetches (n : Nat) : s.SameRegisters (s.fetches n) := by
  induction n generalizing s with
  | zero => rfl
  | succ n ih =>
    have h := ih s.fetch.2
    rw [SameRegisters] at h ⊢
    rw [fetches, h]
    rfl

theorem executeNext_of_fetched? {i : Instruction} (h : s.fetched? = some i) :
    s.executeNext = (.ok (i.cost s.cpu.flags), (s.fetches i.opcodeBytes).execute i) := by
  simp only [fetched?] at h
  simp only [executeNext]
  split
  case isTrue hs =>
    rw [if_pos hs, Option.some.injEq] at h
    rw [h, ← h, Instruction.opcodeBytes_decodeSecond]
    rfl
  case isFalse hs =>
    rw [if_neg hs] at h
    rw [h, Instruction.opcodeBytes_decode _ i h]
    rfl

theorem executeNext_of_fetched?_eq_none (h : s.fetched? = none) :
    ∃ e, s.executeNext = (.error e, s.fetch.2.jumpTo s.cpu.pc) := by
  simp only [fetched?] at h
  split at h
  case isTrue => contradiction
  case isFalse hs =>
    simp only [executeNext, if_neg hs, h]
    exact ⟨_, rfl⟩

-- Only a processor that serves an interrupt leaves for its routine.
theorem sameRegisters_dispatch (h : s.dispatch.1 = false) : s.SameRegisters s.dispatch.2 := by
  simp only [dispatch] at h ⊢
  split
  case isTrue hp =>
    rw [if_pos hp] at h
    split
    case isTrue hi =>
      rw [if_pos hi] at h
      split
      case h_1 _ _ ha =>
        rw [ha] at h
        contradiction
      case h_2 => rfl
    case isFalse => rfl
  case isFalse => rfl

theorem executeNext_of_next? {i : Instruction} (h : s.next? = some i) :
    s.dispatch.1 = false ∧ s.dispatch.2.fetched? = some i ∧ s.step = s.dispatch.2.executeNext := by
  rw [next?] at h
  rw [step]
  split at h
  case h_1 => contradiction
  case h_2 t hd =>
    split at h
    case isTrue => contradiction
    case isFalse hh =>
      rw [hd]
      exact ⟨rfl, h, if_neg hh⟩

theorem step_of_next? {i : Instruction} (h : s.next? = some i) :
    ∃ t : Core β, s.SameRegisters t ∧ s.step.2 = t.execute i := by
  obtain ⟨hd, hf, hs⟩ := s.executeNext_of_next? h
  have ht := s.dispatch.2.sameRegisters_fetches i.opcodeBytes
  rw [executeNext_of_fetched? _ hf] at hs
  refine ⟨s.dispatch.2.fetches i.opcodeBytes, ?_, congrArg Prod.snd hs⟩
  rw [SameRegisters, ht, s.sameRegisters_dispatch hd]

end Core
end DotMatrix
