import DotMatrix.Proofs.Cpu.Stack

namespace DotMatrix

-- The numbers that opcodes have for the conditions.
def Condition.code : Condition → UInt8
  | nz => 0
  | z  => 1
  | nc => 2
  | c  => 3

-- A flag is either set or not.
theorem Condition.holds_nz_ne_z (f : Flags) : holds f nz ≠ holds f z :=
  Bool.not_ne_self f.zero

theorem Condition.holds_nc_ne_c (f : Flags) : holds f nc ≠ holds f c :=
  Bool.not_ne_self f.carry

theorem Flags.get_ofByte (b : UInt8) (flag : Flag) :
    (ofByte b).get flag = (b &&& flag.mask != 0) := by
  have h : ∀ n : Fin 256, (ofByte (.ofNat n)).get flag = (.ofNat n &&& flag.mask != 0) := by
    cases flag <;> decide +kernel
  simpa using h ⟨b.toNat, b.toNat_lt⟩

-- The instructions that may go on elsewhere, with a condition and without.
inductive Branch
  | jumpRelative
  | jump
  | call
  | ret
  deriving Repr, DecidableEq

namespace Branch

def instruction : Branch → Option Condition → Instruction
  | jumpRelative => .jumpRelative
  | jump         => .jump
  | call         => .call
  | ret          => .ret

def opcode : Branch → Option Condition → UInt8
  | jumpRelative, none   => 0x18
  | jumpRelative, some t => 0x20 + 8 * t.code
  | jump, none           => 0xc3
  | jump, some t         => 0xc2 + 8 * t.code
  | call, none           => 0xcd
  | call, some t         => 0xc4 + 8 * t.code
  | ret, none            => 0xc9
  | ret, some t          => 0xc0 + 8 * t.code

-- The bytes after the opcode that tell where to go. A return finds that on the stack.
def operandBytes : Branch → Nat
  | jumpRelative => 1
  | jump         => 2
  | call         => 2
  | ret          => 0

-- The ticks of a branch whose condition holds.
def takenTicks : Branch → Nat
  | jumpRelative => 12
  | jump         => 16
  | call         => 24
  | ret          => 20

-- The ticks of a branch whose condition does not hold.
def skippedTicks : Branch → Nat
  | jumpRelative => 8
  | jump         => 12
  | call         => 12
  | ret          => 8

theorem decode_eq_iff (b : Branch) (cond : Option Condition) (opcode : UInt8) :
    Instruction.decode opcode = some (b.instruction cond) ↔ opcode = b.opcode cond := by
  revert opcode
  cases b <;> rcases cond with _ | _ | _ | _ | _ <;> decide +kernel

theorem cost_instruction (b : Branch) (f : Flags) (t : Condition) :
    (b.instruction (some t)).cost f = if t.holds f then b.takenTicks else b.skippedTicks := by
  cases b <;> rfl

end Branch

namespace Core

variable (s : Core Flat)

-- The state after a branch that is taken, from the one in which its opcode has been fetched.
def follow : Branch → Core Flat
  | .jumpRelative => s.jumpTo (s.cpu.pc + 1 + signExtend (s.bus.get s.cpu.pc))
  | .jump         => s.jumpTo (s.bus.wordAt s.cpu.pc)
  | .call         => {
    cpu := { s.cpu with pc := s.bus.wordAt s.cpu.pc, sp := s.cpu.sp - 2 }
    bus := s.bus.setWord (s.cpu.sp - 2) (s.cpu.pc + 2) }
  | .ret          => { s with
    cpu := { s.cpu with pc := s.bus.wordAt s.cpu.sp, sp := s.cpu.sp + 2 } }

-- The state at the end of a branch that is not.
def pass (b : Branch) : Core Flat := s.jumpTo (s.cpu.pc + .ofNat b.operandBytes)

theorem execute_branch (b : Branch) (cond : Option Condition) :
    s.execute (b.instruction cond) =
      if Condition.taken s.cpu.flags cond then s.follow b else s.pass b := by
  cases b
  case ret =>
    have hp : s.pass .ret = s := congrArg s.jumpTo (UInt16.add_zero s.cpu.pc)
    rw [hp]
    rfl
  all_goals rfl

theorem execute_branch_none (b : Branch) : s.execute (b.instruction none) = s.follow b :=
  s.execute_branch b none

end Core

namespace ByteCore

variable (s : ByteCore Flat)

-- A condition looks at its flag only, whatever else is in the byte.
theorem taken_some (t : Condition) : s.taken (some t) = t.holds (.ofByte s.regs.flagByte) := by
  cases t
  case nz | nc => exact congrArg (!·) (Flags.get_ofByte ..).symm
  case z | c   => exact (Flags.get_ofByte ..).symm

theorem execute_branch (b : Branch) (t : Condition) :
    s.execute (b.instruction (some t)) =
      if s.taken (some t) then s.execute (b.instruction none)
      else { s with pc := s.pc + .ofNat b.operandBytes } := by
  cases b
  case ret =>
    have hp : { s with pc := s.pc + .ofNat Branch.ret.operandBytes } = s :=
      congrArg (fun pc => { s with pc }) (UInt16.add_zero s.pc)
    rw [hp]
    rfl
  all_goals rfl

theorem cost_branch (b : Branch) (t : Condition) :
    s.cost (b.instruction (some t)) =
      if s.taken (some t) then b.takenTicks else b.skippedTicks := by
  rw [taken_some]
  exact b.cost_instruction ..

end ByteCore

-- A branch with a condition either does what it does without one or only goes past its operand. One
-- of two opposite conditions is met, also by a byte of flags with bits in it that are no flags.
theorem conditional_branches_agree :
    (∀ (b : Branch) (cond : Option Condition) (opcode : UInt8),
      Instruction.decode opcode = some (b.instruction cond) ↔ opcode = b.opcode cond) ∧
    (∀ (s : Core Flat) (b : Branch) (t : Condition),
      s.execute (b.instruction none) = s.follow b ∧
      s.execute (b.instruction (some t)) =
        (if t.holds s.cpu.flags then s.execute (b.instruction none)
        else { s with cpu := { s.cpu with pc := s.cpu.pc + .ofNat b.operandBytes } }) ∧
      (b.instruction (some t)).cost s.cpu.flags =
        if t.holds s.cpu.flags then b.takenTicks else b.skippedTicks) ∧
    (∀ (s : ByteCore Flat) (b : Branch) (t : Condition),
      s.execute (b.instruction (some t)) =
        (if s.taken (some t) then s.execute (b.instruction none)
        else { s with pc := s.pc + .ofNat b.operandBytes }) ∧
      s.cost (b.instruction (some t)) =
        if s.taken (some t) then b.takenTicks else b.skippedTicks) ∧
    (∀ f : Flags, Condition.holds f .nz ≠ Condition.holds f .z ∧
      Condition.holds f .nc ≠ Condition.holds f .c) ∧
    ∀ s : ByteCore Flat, s.taken (some .nz) ≠ s.taken (some .z) ∧
      s.taken (some .nc) ≠ s.taken (some .c) := by
  have hone (f : Flags) := And.intro (Condition.holds_nz_ne_z f) (Condition.holds_nc_ne_c f)
  refine ⟨Branch.decode_eq_iff,
    fun s b t => ⟨s.execute_branch_none b, ?_, b.cost_instruction ..⟩,
    fun s b t => ⟨s.execute_branch b t, s.cost_branch b t⟩, hone, fun s => ?_⟩
  case refine_1 =>
    rw [Core.execute_branch_none]
    exact s.execute_branch b (some t)
  case refine_2 =>
    simp only [ByteCore.taken_some]
    exact hone _

-- An operand around the end of memory is passed over like any other.
example :
    (Core.pass { cpu := { Cpu.postBoot with pc := 0xffff }, bus := {} } .jump).cpu.pc = 1 := by
  decide

end DotMatrix
