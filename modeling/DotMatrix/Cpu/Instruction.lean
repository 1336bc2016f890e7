import DotMatrix.Cpu.Arithmetic
import DotMatrix.Cpu.Registers

namespace DotMatrix

-- Where an instruction finds a byte that it may change.
inductive Place
  | reg (r : Register)
  -- The byte in memory that HL points at.
  | memHl
  deriving Repr, DecidableEq

-- Where an instruction finds a byte that it only reads.
inductive Operand
  | place (p : Place)
  -- The byte after the opcode.
  | imm
  deriving Repr, DecidableEq

-- How the loads between the accumulator and memory form their address.
inductive Address
  | bc
  | de
  -- HL, which is then incremented.
  | hlInc
  -- HL, which is then decremented.
  | hlDec
  -- The word after the opcode.
  | imm
  -- The byte after the opcode, in the page of the device registers.
  | pageImm
  -- Register C, in the page of the device registers.
  | pageC
  deriving Repr, DecidableEq

inductive Condition
  | nz
  | z
  | nc
  | c
  deriving Repr, DecidableEq

def Condition.holds (f : Flags) : Condition → Bool
  | nz => !f.zero
  | z  => f.zero
  | nc => !f.carry
  | c  => f.carry

inductive Instruction
  | nop
  | load (dst : Place) (src : Operand)
  | loadA (src : Address)
  | storeA (dst : Address)
  | loadPair (rr : Pair)
  | storeSp
  | copyHlToSp
  -- Sets HL to SP plus a signed byte.
  | offsetToHl
  -- Adds a signed byte to SP.
  | offsetToSp
  | push (rr : Pair)
  | pop (rr : Pair)
  | alu (op : AluOp) (src : Operand)
  | inc (p : Place)
  | dec (p : Place)
  | incPair (rr : Pair)
  | decPair (rr : Pair)
  | addHl (rr : Pair)
  -- A rotation of the accumulator, which always clears the zero flag.
  | rotateA (r : Rotation)
  | shift (s : Shift) (p : Place)
  | bit (i : Fin 8) (p : Place)
  | res (i : Fin 8) (p : Place)
  | set (i : Fin 8) (p : Place)
  | daa
  | cpl
  | scf
  | ccf
  | jump (cond : Option Condition)
  | jumpHl
  | jumpRelative (cond : Option Condition)
  | call (cond : Option Condition)
  | ret (cond : Option Condition)
  | reti
  | rst (vector : Fin 8)
  | di
  | ei
  | halt
  | stop
  deriving Repr, DecidableEq

-- Whether a jump with the condition, if it has one, is taken.
def Condition.taken (f : Flags) (cond : Option Condition) : Bool := cond.all (holds f)

-- One of two costs: of the forms that work on a register, or of those that go to memory.
def Place.cost (p : Place) (reg mem : Nat) : Nat :=
  match p with
  | .reg _ => reg
  | .memHl => mem

def Operand.cost (src : Operand) (reg mem : Nat) : Nat :=
  match src with
  | .place p => p.cost reg mem
  | .imm     => mem

def Address.cost : Address → Nat
  | bc | de | hlInc | hlDec | pageC => 8
  | pageImm => 12
  | imm     => 16

-- The ticks that an instruction takes, the fetch of its opcode bytes included. A jump that is
-- not taken costs less.
def Instruction.cost (f : Flags) : Instruction → Nat
  | load dst src       => match src with
    | .imm     => dst.cost 8 12
    | .place p => dst.cost (p.cost 4 8) 8
  | loadA a | storeA a => a.cost
  | loadPair _         => 12
  | storeSp            => 20
  | copyHlToSp         => 8
  | offsetToHl         => 12
  | offsetToSp         => 16
  | push _             => 16
  | pop _              => 12
  | alu _ src          => src.cost 4 8
  | inc p | dec p      => p.cost 4 12
  | incPair _ | decPair _ | addHl _ => 8
  | shift _ p | res _ p | set _ p   => p.cost 8 16
  | bit _ p            => p.cost 8 12
  | jump cond          => if Condition.taken f cond then 16 else 12
  | jumpRelative cond  => if Condition.taken f cond then 12 else 8
  | call cond          => if Condition.taken f cond then 24 else 12
  | ret none           => 16
  | ret (some cond)    => if cond.holds f then 20 else 8
  | reti | rst _       => 16
  | nop | rotateA _ | daa | cpl | scf | ccf | jumpHl | di | ei | halt | stop => 4

theorem Place.le_cost {p : Place} {n reg mem : Nat} (hr : n ≤ reg) (hm : n ≤ mem) :
    n ≤ p.cost reg mem := by
  cases p <;> assumption

theorem Operand.le_cost {src : Operand} {n reg mem : Nat} (hr : n ≤ reg) (hm : n ≤ mem) :
    n ≤ src.cost reg mem := by
  cases src
  case place => exact Place.le_cost hr hm
  case imm   => exact hm

-- Every instruction takes some time.
theorem Instruction.cost_pos (f : Flags) (i : Instruction) : 0 < i.cost f := by
  cases i with
  | load dst src =>
    cases src with
    | imm     => exact Place.le_cost (by decide) (by decide)
    | place p => exact Place.le_cost (Place.le_cost (by decide) (by decide)) (by decide)
  | loadA a | storeA a => cases a <;> simp [cost, Address.cost]
  | alu _ src => exact Operand.le_cost (by decide) (by decide)
  | inc p | dec p | shift _ p | res _ p | set _ p | bit _ p =>
    exact Place.le_cost (by decide) (by decide)
  | jump cond | jumpRelative cond | call cond =>
    simp only [cost]
    split <;> decide
  | ret cond =>
    cases cond with
    | none   => simp [cost]
    | some _ =>
      simp only [cost]
      split <;> decide
  | _ => simp [cost]

end DotMatrix
