import DotMatrix.Proofs.Cpu.Illegal
import DotMatrix.Proofs.Cpu.Fetch

namespace DotMatrix

namespace Instruction

theorem decode_eq_halt_iff (opcode : UInt8) : decode opcode = some .halt ↔ opcode = 0x76 := by
  revert opcode
  decide +kernel

theorem decodeSecond_ne_halt (opcode : UInt8) : decodeSecond opcode ≠ .halt := by
  simp only [decodeSecond]
  split <;> simp

end Instruction

namespace Core

variable {β : Type} [Bus β] (s : Core β)

theorem halted_readPlace (p : Place) : (s.readPlace p).2.cpu.halted = s.cpu.halted := by
  cases p <;> rfl

theorem halted_readOperand (src : Operand) : (s.readOperand src).2.cpu.halted = s.cpu.halted := by
  cases src
  case place p => exact s.halted_readPlace p
  case imm     => rfl

theorem halted_writePlace (p : Place) (v : UInt8) :
    (s.writePlace p v).cpu.halted = s.cpu.halted := by
  cases p
  case reg x => cases x <;> rfl
  case memHl => rfl

theorem halted_resolve (a : Address) : (s.resolve a).2.cpu.halted = s.cpu.halted := by
  cases a <;> rfl

theorem halted_setPair (cpu : Cpu) (rr : Pair) (v : UInt16) :
    (cpu.setPair rr v).halted = cpu.halted := by
  cases rr <;> rfl

-- Only one instruction sends the processor to sleep.
theorem halted_execute {i : Instruction} (h : i ≠ .halt) :
    (s.execute i).cpu.halted = s.cpu.halted := by
  cases i
  case halt => contradiction
  case load dst src => exact (halted_writePlace ..).trans (s.halted_readOperand src)
  case alu op src => exact s.halted_readOperand src
  case inc p | dec p | shift op p | res i p | set i p =>
    exact (halted_writePlace ..).trans (s.halted_readPlace p)
  case bit i p => exact s.halted_readPlace p
  case loadA a | storeA a => exact s.halted_resolve a
  case loadPair rr | incPair rr | decPair rr | pop rr => exact halted_setPair ..
  case jump | jumpRelative | call | ret =>
    simp only [execute]
    split <;> rfl
  all_goals rfl

theorem halted_fetches (n : Nat) : (s.fetches n).cpu.halted = s.cpu.halted := by
  induction n generalizing s with
  | zero => rfl
  | succ n ih => exact ih s.fetch.2

theorem fetched?_eq_halt_iff : s.fetched? = some .halt ↔ s.opcode = 0x76 := by
  have hf : s.fetched? = if s.opcode = Instruction.secondTable
      then some (Instruction.decodeSecond s.fetch.2.opcode) else Instruction.decode s.opcode := rfl
  rw [hf]
  split
  case isTrue hs =>
    have hn : Instruction.secondTable ≠ 0x76 := by decide
    simp [hs, hn, Instruction.decodeSecond_ne_halt]
  case isFalse => exact Instruction.decode_eq_halt_iff s.opcode

-- A pending interrupt wakes the processor, whether or not it is served.
theorem halted_dispatch_of_pending {s : Core β} (h : Bus.pending s.bus) :
    s.dispatch.2.cpu.halted = false := by
  simp only [dispatch, h, if_true]
  split
  case isTrue  => split <;> rfl
  case isFalse => rfl

theorem halted_executeNext (h : s.cpu.halted = false) :
    s.executeNext.2.cpu.halted ↔ s.opcode = 0x76 := by
  rw [← fetched?_eq_halt_iff]
  cases hf : s.fetched?
  case none =>
    obtain ⟨e, he⟩ := s.executeNext_of_fetched?_eq_none hf
    have hh : (s.fetch.2.jumpTo s.cpu.pc).cpu.halted = false := h
    simp [he, hh]
  case some i =>
    rw [s.executeNext_of_fetched? hf, Option.some.injEq]
    by_cases hi : i = .halt
    case pos =>
      rw [hi]
      exact iff_of_true rfl rfl
    case neg =>
      have hh := ((s.fetches i.opcodeBytes).halted_execute hi).trans (s.halted_fetches _)
      simp [hh, h, hi]

end Core
end DotMatrix
