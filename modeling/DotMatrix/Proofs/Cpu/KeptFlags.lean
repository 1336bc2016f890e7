import DotMatrix.Cpu.Step
import Mathlib.Data.FinEnum

namespace DotMatrix

namespace Instruction

-- What an instruction is about.
inductive Kind
  -- Bytes and words go from one place to another.
  | move
  -- Words are added up or counted.
  | word
  -- A byte is computed, and flags with it.
  | byte
  -- A single bit of a byte is looked at or changed.
  | bit
  -- The program goes on elsewhere.
  | branch
  -- The state of the processor itself.
  | control

def kind : Instruction → Kind
  | load _ _ | loadA _ | storeA _ | loadPair _ | storeSp      => .move
  | copyHlToSp | push _ | pop _                               => .move
  | offsetToHl | offsetToSp | incPair _ | decPair _ | addHl _ => .word
  | alu _ _ | inc _ | dec _ | rotateA _ | shift _ _           => .byte
  | daa | cpl | scf | ccf                                     => .byte
  | bit _ _ | res _ _ | set _ _                               => .bit
  | jump _ | jumpHl | jumpRelative _ | call _ | ret _         => .branch
  | reti | rst _                                              => .branch
  | nop | di | ei | halt | stop                               => .control

-- Loads, counting in words, the stack, jumps, and the change of a single bit leave the flags alone.
-- Of what can be taken off the stack, only AF holds flags.
def keepsFlags : Instruction → Bool
  | load _ _ | loadA _ | storeA _ | loadPair _ | storeSp | copyHlToSp => true
  | incPair _ | decPair _ | push _ | res _ _ | set _ _                => true
  | jump _ | jumpHl | jumpRelative _ | call _ | ret _ | reti | rst _  => true
  | nop | di | ei | halt | stop                                       => true
  | pop rr                                                            => rr != .af
  | _                                                                 => false

-- The pair that the instruction gives a value, unless that value comes off the stack.
def pair? : Instruction → Option Pair
  | loadPair rr | incPair rr | decPair rr => some rr
  | _                                     => none

theorem pair?_decode (opcode : UInt8) : ∀ i ∈ decode opcode, i.pair? ≠ some .af := by
  revert opcode
  decide +kernel

theorem pair?_decodeSecond (opcode : UInt8) : (decodeSecond opcode).pair? = none := by
  simp only [decodeSecond]
  split <;> rfl

end Instruction

namespace Core

variable {β : Type} [Bus β] (s : Core β)

theorem flags_readPlace (p : Place) : (s.readPlace p).2.cpu.flags = s.cpu.flags := by
  cases p <;> rfl

theorem flags_readOperand (src : Operand) : (s.readOperand src).2.cpu.flags = s.cpu.flags := by
  cases src
  case place p => exact s.flags_readPlace p
  case imm     => rfl

theorem flags_writePlace (p : Place) (v : UInt8) :
    (s.writePlace p v).cpu.flags = s.cpu.flags := by
  cases p
  case reg x => cases x <;> rfl
  case memHl => rfl

theorem flags_resolve (a : Address) : (s.resolve a).2.cpu.flags = s.cpu.flags := by
  cases a <;> rfl

theorem flags_setPair (cpu : Cpu) {rr : Pair} (v : UInt16) (h : rr ≠ .af) :
    (cpu.setPair rr v).flags = cpu.flags := by
  cases rr
  case af => contradiction
  all_goals rfl

theorem flags_execute {i : Instruction} (h : i.keepsFlags) (hp : i.pair? ≠ some .af) :
    (s.execute i).cpu.flags = s.cpu.flags := by
  cases i
  case load dst src => exact (flags_writePlace ..).trans (s.flags_readOperand src)
  case res i p | set i p => exact (flags_writePlace ..).trans (s.flags_readPlace p)
  case loadA a | storeA a => exact s.flags_resolve a
  case loadPair rr | incPair rr | decPair rr => exact flags_setPair _ _ fun hr => hp (hr ▸ rfl)
  case pop rr => exact flags_setPair _ _ (by simpa [Instruction.keepsFlags] using h)
  case jump | jumpRelative | call | ret =>
    simp only [execute]
    split <;> rfl
  all_goals first | rfl | contradiction

-- The instruction at the program counter, if there is one.
def fetched? : Option Instruction :=
  let (opcode, s) := s.fetch
  if opcode = Instruction.secondTable then some (Instruction.decodeSecond s.fetch.1)
  else Instruction.decode opcode

-- The instruction that the next step executes, unless it serves an interrupt or waits for one.
def next? : Option Instruction :=
  match s.dispatch with
  | (true, _)  => none
  | (false, s) => if s.cpu.halted then none else s.fetched?

theorem flags_executeNext (h : ∀ i ∈ s.fetched?, i.keepsFlags) :
    s.executeNext.2.cpu.flags = s.cpu.flags := by
  simp only [fetched?] at h
  simp only [executeNext]
  split
  case isTrue hs =>
    rw [if_pos hs] at h
    refine flags_execute _ (h _ rfl) ?_
    simp [Instruction.pair?_decodeSecond]
  case isFalse hs =>
    rw [if_neg hs] at h
    split
    case h_1 i hi => exact flags_execute _ (h i hi) (Instruction.pair?_decode _ i hi)
    case h_2      => rfl

theorem flags_dispatch : s.dispatch.2.cpu.flags = s.cpu.flags := by
  simp only [dispatch]
  split
  case isTrue =>
    split
    case isTrue  => split <;> rfl
    case isFalse => rfl
  case isFalse => rfl

theorem flags_step (h : ∀ i ∈ s.next?, i.keepsFlags) : s.step.2.cpu.flags = s.cpu.flags := by
  have hf := s.flags_dispatch
  simp only [next?] at h
  simp only [step]
  split
  case h_1 t hd =>
    rw [hd] at hf
    exact hf
  case h_2 t hd =>
    simp only [hd] at h hf
    split
    case isTrue hh  => exact hf
    case isFalse hh => exact (t.flags_executeNext (by simpa [hh] using h)).trans hf

-- The processor along a run. Between two steps, the rest of the machine may do what it wants to the
-- bus.
def run (bus : β) (works : List (β → β)) : Core β :=
  works.foldl (fun s work => { s.step.2 with bus := work s.step.2.bus }) { cpu := .postBoot, bus }

end Core

end DotMatrix
