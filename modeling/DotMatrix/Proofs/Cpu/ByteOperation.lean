import DotMatrix.Proofs.Cpu.Code

namespace DotMatrix

-- The numbers that opcodes have for the places of a byte.
def Place.code : Place → UInt8
  | .reg .b => 0
  | .reg .c => 1
  | .reg .d => 2
  | .reg .e => 3
  | .reg .h => 4
  | .reg .l => 5
  | .memHl  => 6
  | .reg .a => 7

def AluOp.code : AluOp → UInt8
  | add => 0
  | adc => 1
  | sub => 2
  | sbc => 3
  | and => 4
  | xor => 5
  | or  => 6
  | cp  => 7

def Shift.code : Shift → UInt8
  | rotate .rlc => 0
  | rotate .rrc => 1
  | rotate .rl  => 2
  | rotate .rr  => 3
  | sla         => 4
  | sra         => 5
  | swap        => 6
  | srl         => 7

-- The opcode of an operation on the accumulator. The operand may be the byte that follows it.
def AluOp.opcode (op : AluOp) : Operand → List UInt8
  | .place p => [0x80 + 8 * op.code + p.code]
  | .imm     => [0xc6 + 8 * op.code]

theorem AluOp.ofOpcode?_opcode (op : AluOp) (src : Operand) :
    Instruction.ofOpcode? (op.opcode src) = some (.alu op src) := by
  rcases src with (⟨_ | _ | _ | _ | _ | _ | _⟩ | _) | _ <;> cases op <;> rfl

-- The operations that change a byte in its place, or only look at it.
inductive PlaceOp
  | inc
  | dec
  | shift (op : Shift)
  | bit (i : Fin 8)
  | res (i : Fin 8)
  | set (i : Fin 8)
  deriving Repr, DecidableEq

namespace PlaceOp

def instruction (op : PlaceOp) (p : Place) : Instruction :=
  match op with
  | inc      => .inc p
  | dec      => .dec p
  | shift op => .shift op p
  | bit i    => .bit i p
  | res i    => .res i p
  | set i    => .set i p

def opcode (op : PlaceOp) (p : Place) : List UInt8 :=
  match op with
  | inc      => [0x04 + 8 * p.code]
  | dec      => [0x05 + 8 * p.code]
  | shift op => [0xcb, 8 * op.code + p.code]
  | bit i    => [0xcb, 0x40 + 8 * .ofNat i + p.code]
  | res i    => [0xcb, 0x80 + 8 * .ofNat i + p.code]
  | set i    => [0xcb, 0xc0 + 8 * .ofNat i + p.code]

-- The byte and the flags that are left of a byte and the flags.
def apply (op : PlaceOp) (v : UInt8) (f : Flags) : UInt8 × Flags :=
  match op with
  | inc      => Arithmetic.inc v f
  | dec      => Arithmetic.dec v f
  | shift op => op.applyFlags v f.carry
  | bit i    => (v, { f with zero := !testBit v i, sub := false, half := true })
  | res i    => (v &&& ~~~bitIf true (.ofNat i), f)
  | set i    => (v ||| bitIf true (.ofNat i), f)

theorem ofOpcode?_opcode (op : PlaceOp) (p : Place) :
    Instruction.ofOpcode? (op.opcode p) = some (op.instruction p) := by
  cases op
  case inc | dec => rcases p with ⟨_ | _ | _ | _ | _ | _ | _⟩ | _ <;> rfl
  case shift op =>
    rcases p with ⟨_ | _ | _ | _ | _ | _ | _⟩ | _ <;>
      rcases op with ⟨_ | _ | _ | _⟩ | _ | _ | _ | _ <;> rfl
  case bit i | res i | set i =>
    revert i
    rcases p with ⟨_ | _ | _ | _ | _ | _ | _⟩ | _ <;> decide

theorem opcodeBytes_instruction (op : PlaceOp) (p : Place) :
    (op.instruction p).opcodeBytes = (op.opcode p).length := by
  cases op <;> rfl

def ofInstruction? : Instruction → Option (PlaceOp × Place)
  | .inc p      => some (inc, p)
  | .dec p      => some (dec, p)
  | .shift op p => some (shift op, p)
  | .bit i p    => some (bit i, p)
  | .res i p    => some (res i, p)
  | .set i p    => some (set i, p)
  | _           => none

-- There is nothing else in the second table.
theorem exists_opcode (opcode : UInt8) :
    ∃ (op : PlaceOp) (p : Place), op.opcode p = [0xcb, opcode] := by
  have h : ∀ opcode, (ofInstruction? (.decodeSecond opcode)).map (fun (op, p) => op.opcode p) =
      some [0xcb, opcode] := by decide +kernel
  obtain ⟨⟨op, p⟩, -, hc⟩ := Option.map_eq_some_iff.mp (h opcode)
  exact ⟨op, p, hc⟩

end PlaceOp

-- The bytes after the opcode that an operand takes.
def Operand.bytes : Operand → Nat
  | place _ => 0
  | imm     => 1

namespace Core

-- The byte that an instruction at the program counter finds in its operand.
def operandByte (s : Core Flat) : Operand → UInt8
  | .place p => s.peek (s.cell p)
  | .imm     => s.bus.get (s.cpu.pc + 1)

-- The program goes on by some bytes, and nothing else is changed but one byte and the flags.
structure Changes (s t : Core Flat) (bytes : Nat) (cell : Cell) (result : UInt8 × Flags) :
    Prop where
  byte   : ∀ c, t.peek c = if c = cell then result.1 else s.peek c
  flags  : t.cpu.flags = result.2
  pc     : t.cpu.pc = s.cpu.pc + .ofNat bytes
  sp     : t.cpu.sp = s.cpu.sp
  ime    : t.cpu.ime = s.cpu.ime
  halted : t.cpu.halted = s.cpu.halted

variable (s : Core Flat)

theorem cell_fetches (n : Nat) (p : Place) : (s.fetches n).cell p = s.cell p := by
  rw [fetches_eq]
  cases p <;> rfl

theorem peek_fetches (n : Nat) (c : Cell) : (s.fetches n).peek c = s.peek c := by
  rw [fetches_eq]
  cases c <;> rfl

theorem flags_fetches (n : Nat) : (s.fetches n).cpu.flags = s.cpu.flags := by
  rw [fetches_eq]

-- Bytes of the program are fetched first.
theorem Changes.of_fetches {s t : Core Flat} {m n : Nat} {c : Cell} {r : UInt8 × Flags}
    (h : (s.fetches m).Changes t n c r) : s.Changes t (m + n) c r where
  byte c' := by rw [h.byte, peek_fetches]
  flags   := h.flags
  pc      := by rw [h.pc, fetches_eq, UInt16.ofNat_add, UInt16.add_assoc]
  sp      := by rw [h.sp, fetches_eq]
  ime     := by rw [h.ime, fetches_eq]
  halted  := by rw [h.halted, fetches_eq]

theorem changes_update (p : Place) (f : UInt8 → Flags → UInt8 × Flags) :
    s.Changes (s.update p f) 0 (s.cell p) (f (s.peek (s.cell p)) s.cpu.flags) := by
  have hb : ∀ c, (s.update p f).peek c = _ := fun c =>
    s.peek_update p f fun a x _ _ => s.bus.holds a x
  have hf := s.flags_update p f
  have hp := (UInt16.add_zero s.cpu.pc).symm
  rcases p with r | _
  case reg   => cases r <;> exact ⟨hb, hf, hp, rfl, rfl, rfl⟩
  case memHl => exact ⟨hb, hf, hp, rfl, rfl, rfl⟩

-- A byte that is only looked at keeps its value.
theorem changes_mapFlags (c : Cell) (f : Flags) :
    s.Changes (s.mapCpu fun cpu => { cpu with flags := f }) 0 c (s.peek c, f) where
  byte c' := by
    split
    case isTrue h  => subst h; cases c' <;> rfl
    case isFalse h => cases c' <;> rfl
  flags  := rfl
  pc     := (UInt16.add_zero s.cpu.pc).symm
  sp     := rfl
  ime    := rfl
  halted := rfl

theorem changes_execute_place (op : PlaceOp) (p : Place) :
    s.Changes (s.execute (op.instruction p)) 0 (s.cell p)
      (op.apply (s.peek (s.cell p)) s.cpu.flags) := by
  have h := s.changes_update p op.apply
  cases op
  case inc | dec | shift => exact h
  case res | set =>
    rcases p with r | _
    case reg   => cases r <;> exact h
    case memHl => exact h
  case bit i => cases p <;> exact s.changes_mapFlags _ _

theorem changes_mapA (r : UInt8 × Flags) :
    s.Changes (s.mapCpu fun cpu => { cpu with a := r.1, flags := r.2 }) 0 (.reg .a) r where
  byte c := by
    rcases c with r | _
    case reg => cases r <;> rfl
    case mem => rfl
  flags  := rfl
  pc     := (UInt16.add_zero s.cpu.pc).symm
  sp     := rfl
  ime    := rfl
  halted := rfl

theorem changes_execute_alu (op : AluOp) (src : Operand) :
    s.Changes (s.execute (.alu op src)) src.bytes (.reg .a)
      (op.apply s.cpu.a (s.readOperand src).1 s.cpu.flags.carry) := by
  rcases src with (r | _) | _
  case place.reg   => exact s.changes_mapA _
  case place.memHl => exact s.changes_mapA _
  case imm         => exact Changes.of_fetches (m := 1) (changes_mapA ..)

-- The operand of an operation on the accumulator is found once the opcode is fetched.
theorem readOperand_fetch (src : Operand) : (s.fetch.2.readOperand src).1 = s.operandByte src := by
  rcases src with (r | _) | _
  case place.reg => cases r <;> rfl
  all_goals rfl

-- The next step executes an operation, wherever its operand is. What becomes of the byte and the
-- flags is told by the byte, the flags and the accumulator alone, and nothing else changes.
theorem step_byteOperation :
    (∀ opcode : UInt8, ∃ (op : PlaceOp) (p : Place), op.opcode p = [0xcb, opcode]) ∧
    ∀ s : Core Flat, s.cpu.halted = false → (Bus.pending s.bus → s.cpu.ime = false) →
      (∀ (op : PlaceOp) (p : Place), s.bus.Contains s.cpu.pc (op.opcode p) →
        (∃ ticks, s.step.1 = .ok ticks) ∧
        s.Changes s.step.2 (op.opcode p).length (s.cell p)
          (op.apply (s.operandByte (.place p)) s.cpu.flags)) ∧
      (∀ (op : AluOp) (src : Operand), s.bus.Contains s.cpu.pc (op.opcode src) →
        (∃ ticks, s.step.1 = .ok ticks) ∧
        s.Changes s.step.2 (1 + src.bytes) (.reg .a)
          (op.apply s.cpu.a (s.operandByte src) s.cpu.flags.carry)) := by
  refine ⟨PlaceOp.exists_opcode, fun s hh hp => ⟨fun op p hc => ?place, fun op src hc => ?alu⟩⟩
  case place =>
    rw [step_of_contains hh hp (op.ofOpcode?_opcode p) hc, op.opcodeBytes_instruction]
    have h := ((s.fetches (op.opcode p).length).changes_execute_place op p).of_fetches
    simp only [cell_fetches, peek_fetches, flags_fetches] at h
    exact ⟨⟨_, rfl⟩, h⟩
  case alu =>
    rw [step_of_contains hh hp (op.ofOpcode?_opcode src) hc]
    have h := (s.fetch.2.changes_execute_alu op src).of_fetches (m := 1)
    rw [readOperand_fetch] at h
    exact ⟨⟨_, rfl⟩, h⟩

-- A program swaps the halves of the opcode that it is about to execute, and then masks the
-- accumulator.
theorem step_byteOperation_swap :
    let cpu := { Cpu.postBoot with h := 0x01, l := 0x01 }
    let bus := Flat.load {} 0x0100 [0xcb, 0x36, 0xe6, 0x0f]
    let s : Core Flat := { cpu, bus }
    let t : Core Flat := { cpu := { cpu with pc := 0x0102 }, bus }
    ((s.cpu.halted = false ∧ (Bus.pending s.bus → s.cpu.ime = false)) ∧
      s.bus.Contains s.cpu.pc [0xcb, 0x36] ∧ t.bus.Contains t.cpu.pc [0xe6]) ∧
    s.Changes s.step.2 2 (.mem 0x0101) (0x63, {}) ∧
    t.Changes t.step.2 2 (.reg .a) (0x01, { half := true }) := by
  intro cpu bus s t
  have hb : bus.Contains 0x0100 [0xcb, 0x36, 0xe6, 0x0f] := Flat.contains_load _ _ (by simp)
  clear_value bus
  obtain ⟨h0, h1, h2, h3, -⟩ := hb
  have hi : Bus.pending s.bus → s.cpu.ime = false := fun _ => rfl
  have hs : s.bus.Contains s.cpu.pc [0xcb, 0x36] := ⟨h0, h1, trivial⟩
  have ht : t.bus.Contains t.cpu.pc [0xe6] := ⟨h2, trivial⟩
  have hm : cpu.hl = 0x0100 + 1 := by decide
  have hx : (PlaceOp.shift .swap).apply 0x36 cpu.flags = (0x63, {}) := by decide
  have hy : AluOp.and.apply cpu.a 0x0f cpu.flags.carry = (0x01, { half := true }) := by decide
  refine ⟨⟨⟨rfl, hi⟩, hs, ht⟩, ?_, ?_⟩
  · have h := ((step_byteOperation.2 s rfl hi).1 (.shift .swap) .memHl hs).2
    have hc : s.cell .memHl = .mem (0x0100 + 1) := congrArg Cell.mem hm
    have hv : s.operandByte (.place .memHl) = 0x36 := by
      rw [operandByte, hc, peek_flat]
      exact h1
    rw [hv, hx, hc] at h
    exact h
  · have h := ((step_byteOperation.2 t rfl hi).2 .and .imm ht).2
    have hv : t.operandByte .imm = 0x0f := h3
    rw [hv, hy] at h
    exact h

end Core
end DotMatrix
