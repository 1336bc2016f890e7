import DotMatrix.Proofs.Cpu.Journal
import Mathlib.Data.FinEnum

namespace DotMatrix

namespace Instruction

-- The opcodes that mean nothing.
def undefined : List UInt8 :=
  [0xd3, 0xdb, 0xdd, 0xe3, 0xe4, 0xeb, 0xec, 0xed, 0xf4, 0xfc, 0xfd]

-- The opcode that announces the second table is none of the first, and all of that table is defined.
theorem decode_eq_none_iff (opcode : UInt8) :
    decode opcode = none ↔ opcode = secondTable ∨ opcode ∈ undefined := by
  revert opcode
  decide +kernel

theorem secondTable_not_mem_undefined : secondTable ∉ undefined := by
  decide

end Instruction

namespace Core

variable {β : Type} [Bus β] {s t : Core β} {e : IllegalInstruction}

-- The byte that the program counter points at.
def opcode (s : Core β) : UInt8 := (Bus.read s.bus s.cpu.pc).fst

-- The bus once that byte is read.
def fetched (s : Core β) : β := (Bus.read s.bus s.cpu.pc).snd

def awake (s : Core β) : Core β := s.mapCpu fun cpu => { cpu with halted := false }

theorem fetch_eq (s : Core β) :
    s.fetch = (s.opcode, { cpu := { s.cpu with pc := s.cpu.pc + 1 }, bus := s.fetched }) :=
  rfl

theorem executeNext_of_decode {i : Instruction} (h : Instruction.decode s.opcode = some i) :
    s.executeNext = (.ok (i.cost s.cpu.flags),
      execute { cpu := { s.cpu with pc := s.cpu.pc + 1 }, bus := s.fetched } i) := by
  have hn : s.opcode ≠ Instruction.secondTable := by
    intro hs
    have hd := (Instruction.decode_eq_none_iff s.opcode).mpr (.inl hs)
    exact Option.some_ne_none i (h.symm.trans hd)
  rw [executeNext, fetch_eq]
  simp only [if_neg hn, h]

theorem executeNext_of_undefined (h : s.opcode ∈ Instruction.undefined) :
    s.executeNext =
      (.error { opcode := s.opcode, pc := s.cpu.pc }, { s with bus := s.fetched }) := by
  have hn : s.opcode ≠ Instruction.secondTable :=
    fun hs => Instruction.secondTable_not_mem_undefined (hs ▸ h)
  have hd := (Instruction.decode_eq_none_iff s.opcode).mpr (.inr h)
  rw [executeNext, fetch_eq]
  simp only [if_neg hn, hd]
  rfl

theorem executeNext_of_secondTable (h : s.opcode = Instruction.secondTable) :
    ∃ ticks t, s.executeNext = (.ok ticks, t) :=
  ⟨_, _, if_pos h⟩

-- No other opcode is illegal.
theorem undefined_of_executeNext (h : s.executeNext = (.error e, t)) :
    s.opcode ∈ Instruction.undefined := by
  cases hd : Instruction.decode s.opcode
  case some =>
    rw [executeNext_of_decode hd] at h
    cases h
  case none =>
    refine (Instruction.decode_eq_none_iff s.opcode).mp hd |>.resolve_left fun hs => ?_
    have ⟨ticks, u, hu⟩ := executeNext_of_secondTable hs
    cases hu.symm.trans h

-- An interrupt that is pending only wakes a processor that is closed to it.
theorem dispatch_of_closed (h : Bus.pending s.bus → s.cpu.ime = false) :
    s.dispatch = (false, if Bus.pending s.bus then s.awake else s) := by
  by_cases hp : Bus.pending s.bus
  case pos =>
    have hi : ¬s.cpu.ime := by simp [h hp]
    simp only [dispatch, if_pos hp]
    exact if_neg hi
  case neg => simp only [dispatch, if_neg hp]

-- The next opcode means nothing, and neither sleep nor an interrupt keeps the processor from it.
structure Stuck (s : Core β) : Prop where
  awake     : s.cpu.halted = false
  closed    : Bus.pending s.bus → s.cpu.ime = false
  undefined : s.opcode ∈ Instruction.undefined

omit [Bus β] in
theorem awake_eq (h : s.cpu.halted = false) : s.awake = s := by
  rw [awake, mapCpu, ← h]

theorem Stuck.step (h : s.Stuck) :
    s.step = (.error { opcode := s.opcode, pc := s.cpu.pc }, { s with bus := s.fetched }) := by
  have hd : s.dispatch = (false, s) := by rw [dispatch_of_closed h.closed, awake_eq h.awake, ite_self]
  simp only [Core.step, hd, h.awake, Bool.false_eq_true, if_false]
  exact executeNext_of_undefined h.undefined

-- On a bus that serves an interrupt whenever one is pending, an illegal instruction is met in no
-- other way, and the step has done no more than to wake the processor.
theorem stuck_of_step (hb : Bus.pending s.bus → (Bus.acknowledge s.bus).fst ≠ none)
    (h : s.step = (.error e, t)) : s.awake.Stuck ∧ s.awake.step = s.step := by
  have hc : Bus.pending s.bus → s.cpu.ime = false := by
    intro hp
    refine Bool.eq_false_iff.mpr fun hi => ?_
    have ⟨line, hl⟩ := Option.ne_none_iff_exists'.mp (hb hp)
    rw [step_of_serve hp hi (Prod.ext hl rfl)] at h
    cases h
  have hd := dispatch_of_closed hc
  by_cases hp : Bus.pending s.bus
  case pos =>
    rw [if_pos hp] at hd
    have hs : s.step = s.awake.executeNext := by
      simp only [Core.step, hd]
      rfl
    have hw : s.awake.Stuck := ⟨rfl, hc, undefined_of_executeNext (hs ▸ h)⟩
    exact ⟨hw, by rw [hs, hw.step, executeNext_of_undefined hw.undefined]⟩
  case neg =>
    rw [if_neg hp] at hd
    have hh : s.cpu.halted = false := by
      refine Bool.eq_false_iff.mpr fun hh => ?_
      simp only [Core.step, hd, hh, if_true] at h
      cases h
    have hs : s.step = s.executeNext := by
      simp only [Core.step, hd, hh, Bool.false_eq_true, if_false]
    rw [awake_eq hh]
    exact ⟨⟨hh, hc, undefined_of_executeNext (hs ▸ h)⟩, rfl⟩

end Core
end DotMatrix
