import DotMatrix.Cpu.Step
import DotMatrix.Proofs.Checked.Arithmetic
import DotMatrix.Proofs.Checked.Board
import Mathlib.Data.Nat.Bitwise

namespace DotMatrix.Core

variable (s : Core Board)

def checkedRead (a : UInt16) : Checked (UInt8 × Core Board) := do
  let v ← s.bus.checkedRead a
  return (v, s)

def checkedWrite (a : UInt16) (v : UInt8) : Checked (Core Board) := do
  let bus ← s.bus.checkedWrite a v
  return { s with bus }

def checkedReadWord (a : UInt16) : Checked (UInt16 × Core Board) := do
  let (low, s) ← s.checkedRead a
  let (high, s) ← s.checkedRead (a + 1)
  return (word low high, s)

def checkedWriteWord (a v : UInt16) : Checked (Core Board) := do
  let s ← s.checkedWrite a (lowByte v)
  s.checkedWrite (a + 1) (highByte v)

def checkedFetch : Checked (UInt8 × Core Board) := do
  let (v, s) ← s.checkedRead s.cpu.pc
  return (v, s.mapCpu fun cpu => { cpu with pc := cpu.pc + 1 })

def checkedFetchWord : Checked (UInt16 × Core Board) := do
  let (v, s) ← s.checkedReadWord s.cpu.pc
  return (v, s.mapCpu fun cpu => { cpu with pc := cpu.pc + 2 })

def checkedPush (v : UInt16) : Checked (Core Board) :=
  let s := s.mapCpu fun cpu => { cpu with sp := cpu.sp - 2 }
  s.checkedWriteWord s.cpu.sp v

def checkedPop : Checked (UInt16 × Core Board) := do
  let (v, s) ← s.checkedReadWord s.cpu.sp
  return (v, s.mapCpu fun cpu => { cpu with sp := cpu.sp + 2 })

def checkedCallTo (a : UInt16) : Checked (Core Board) := do
  let s ← s.checkedPush s.cpu.pc
  return s.jumpTo a

def checkedReadPlace : Place → Checked (UInt8 × Core Board)
  | .reg r => some (s.cpu.get r, s)
  | .memHl => s.checkedRead s.cpu.hl

def checkedWritePlace (p : Place) (v : UInt8) : Checked (Core Board) :=
  match p with
  | .reg r => some (s.mapCpu fun cpu => cpu.set r v)
  | .memHl => s.checkedWrite s.cpu.hl v

def checkedReadOperand : Operand → Checked (UInt8 × Core Board)
  | .place p => s.checkedReadPlace p
  | .imm     => s.checkedFetch

def checkedResolve : Address → Checked (UInt16 × Core Board)
  | .imm     => s.checkedFetchWord
  | .pageImm => do
    let (low, s) ← s.checkedFetch
    return (devicePage ||| low.toUInt16, s)
  | a        => some (s.resolve a)

def checkedUpdate (p : Place) (f : UInt8 → Flags → UInt8 × Flags) : Checked (Core Board) := do
  let (v, s) ← s.checkedReadPlace p
  let (v, flags) ← Flags.checkedResult (f v s.cpu.flags)
  let s ← s.checkedWritePlace p v
  return s.mapCpu fun cpu => { cpu with flags }

-- Changes the flags alone.
def checkedFlags (flags : Flags) : Checked (Core Board) := do
  let flags ← flags.checked
  return s.mapCpu fun cpu => { cpu with flags }

def checkedExecute : Instruction → Checked (Core Board)
  | .nop => some s
  | .load dst src => do
    let (v, s) ← s.checkedReadOperand src
    s.checkedWritePlace dst v
  | .loadA src => do
    let (a, s) ← s.checkedResolve src
    let (v, s) ← s.checkedRead a
    return s.mapCpu fun cpu => { cpu with a := v }
  | .storeA dst => do
    let (a, s) ← s.checkedResolve dst
    s.checkedWrite a s.cpu.a
  | .loadPair rr => do
    let (v, s) ← s.checkedFetchWord
    return s.mapCpu fun cpu => cpu.setPair rr v
  | .storeSp => do
    let (a, s) ← s.checkedFetchWord
    s.checkedWriteWord a s.cpu.sp
  | .copyHlToSp => some (s.mapCpu fun cpu => { cpu with sp := cpu.hl })
  | .offsetToHl => do
    let (offset, s) ← s.checkedFetch
    let (v, flags) ← Arithmetic.checkedAddOffset s.cpu.sp offset
    return s.mapCpu fun cpu => { cpu.setPair .hl v with flags }
  | .offsetToSp => do
    let (offset, s) ← s.checkedFetch
    let (v, flags) ← Arithmetic.checkedAddOffset s.cpu.sp offset
    return s.mapCpu fun cpu => { cpu with sp := v, flags }
  | .push rr => s.checkedPush (s.cpu.getPair rr)
  | .pop rr => do
    let (v, s) ← s.checkedPop
    return s.mapCpu fun cpu => cpu.setPair rr v
  | .alu op src => do
    let (v, s) ← s.checkedReadOperand src
    let (a, flags) ← op.checkedApply s.cpu.a v s.cpu.flags.carry
    return s.mapCpu fun cpu => { cpu with a, flags }
  | .inc p => s.checkedUpdate p Arithmetic.inc
  | .dec p => s.checkedUpdate p Arithmetic.dec
  | .incPair rr => some (s.mapCpu fun cpu => cpu.setPair rr (cpu.getPair rr + 1))
  | .decPair rr => some (s.mapCpu fun cpu => cpu.setPair rr (cpu.getPair rr - 1))
  | .addHl rr => do
    let (v, flags) ← Arithmetic.checkedAddWords s.cpu.hl (s.cpu.getPair rr) s.cpu.flags
    return s.mapCpu fun cpu => { cpu.setPair .hl v with flags }
  | .rotateA r => do
    let (a, carry) := r.apply s.cpu.a s.cpu.flags.carry
    let s := s.mapCpu fun cpu => { cpu with a }
    s.checkedFlags { carry }
  | .shift op p => s.checkedUpdate p fun v flags => op.applyFlags v flags.carry
  | .bit i p => do
    let (v, s) ← s.checkedReadPlace p
    let bit ← checkedBit i
    s.checkedFlags { s.cpu.flags with zero := v &&& bit == 0, sub := false, half := true }
  | .res i p => do
    let (v, s) ← s.checkedReadPlace p
    let bit ← checkedBit i
    s.checkedWritePlace p (v &&& ~~~bit)
  | .set i p => do
    let (v, s) ← s.checkedReadPlace p
    let bit ← checkedBit i
    s.checkedWritePlace p (v ||| bit)
  | .daa => do
    let (a, flags) ← Flags.checkedResult (Arithmetic.decimalAdjust s.cpu.a s.cpu.flags)
    return s.mapCpu fun cpu => { cpu with a, flags }
  | .cpl =>
    let s := s.mapCpu fun cpu => { cpu with a := ~~~cpu.a }
    s.checkedFlags { s.cpu.flags with sub := true, half := true }
  | .scf => s.checkedFlags { s.cpu.flags with sub := false, half := false, carry := true }
  | .ccf =>
    s.checkedFlags { s.cpu.flags with sub := false, half := false, carry := !s.cpu.flags.carry }
  | .jump cond => do
    let (a, s) ← s.checkedFetchWord
    return if Condition.taken s.cpu.flags cond then s.jumpTo a else s
  | .jumpHl => some (s.jumpTo s.cpu.hl)
  | .jumpRelative cond => do
    let (offset, s) ← s.checkedFetch
    return if Condition.taken s.cpu.flags cond then s.jumpTo (s.cpu.pc + signExtend offset) else s
  | .call cond => do
    let (a, s) ← s.checkedFetchWord
    if Condition.taken s.cpu.flags cond then s.checkedCallTo a else return s
  | .ret cond =>
    if Condition.taken s.cpu.flags cond then do
      let (a, s) ← s.checkedPop
      return s.jumpTo a
    else
      some s
  | .reti => do
    let (a, s) ← s.checkedPop
    return s.mapCpu fun cpu => { cpu with pc := a, ime := true }
  | .rst vector => do
    let a ← Checked.mul 16 8 vector
    s.checkedCallTo (.ofNat a)
  | .di => some (s.mapCpu fun cpu => { cpu with ime := false })
  | .ei => some (s.mapCpu fun cpu => { cpu with ime := true })
  | .halt => some (s.mapCpu fun cpu => { cpu with halted := true })
  | .stop => do
    let (_, s) ← s.checkedFetch
    return s

def checkedVector (line : Fin 5) : Checked UInt16 := do
  let offset ← Checked.mul 16 8 line
  let a ← Checked.add 16 0x40 offset
  return .ofNat a

def checkedDispatch : Checked (Bool × Core Board) :=
  if Bus.pending s.bus then
    let s := s.mapCpu fun cpu => { cpu with halted := false }
    if s.cpu.ime then do
      match ← s.bus.checkedAcknowledge with
      | (some line, bus) =>
        let s : Core Board := { s with bus }
        let a ← checkedVector line
        let s ← (s.mapCpu fun cpu => { cpu with ime := false }).checkedCallTo a
        return (true, s)
      | (none, bus) => return (false, { s with bus })
    else
      some (false, s)
  else
    some (false, s)

def checkedExecuteNext : Checked (Except IllegalInstruction Nat × Core Board) := do
  let pc := s.cpu.pc
  let (opcode, s) ← s.checkedFetch
  if opcode = Instruction.secondTable then
    let (opcode, s) ← s.checkedFetch
    let i ← Instruction.checkedDecodeSecond opcode
    let t ← s.checkedExecute i
    return (.ok (i.cost s.cpu.flags), t)
  else
    match ← Instruction.checkedDecode opcode with
    | some i =>
      let t ← s.checkedExecute i
      return (.ok (i.cost s.cpu.flags), t)
    | none => return (.error { opcode, pc }, s.jumpTo pc)

def checkedStep : Checked (Except IllegalInstruction Nat × Core Board) := do
  match ← s.checkedDispatch with
  | (true, s)  => return (.ok dispatchCost, s)
  | (false, s) => if s.cpu.halted then return (.ok haltCost, s) else s.checkedExecuteNext

@[simp]
theorem checkedRead_eq (a : UInt16) : s.checkedRead a = some (s.read a) := by
  rw [checkedRead, Board.checkedRead_eq]
  rfl

@[simp]
theorem checkedWrite_eq (a : UInt16) (v : UInt8) : s.checkedWrite a v = some (s.write a v) := by
  rw [checkedWrite, Board.checkedWrite_eq]
  rfl

@[simp]
theorem checkedReadWord_eq (a : UInt16) : s.checkedReadWord a = some (s.readWord a) := by
  simp [checkedReadWord, readWord]

@[simp]
theorem checkedWriteWord_eq (a v : UInt16) : s.checkedWriteWord a v = some (s.writeWord a v) := by
  simp [checkedWriteWord, writeWord]

@[simp]
theorem checkedFetch_eq : s.checkedFetch = some s.fetch := by
  simp [checkedFetch, fetch]

@[simp]
theorem checkedFetchWord_eq : s.checkedFetchWord = some s.fetchWord := by
  simp [checkedFetchWord, fetchWord]

@[simp]
theorem checkedPush_eq (v : UInt16) : s.checkedPush v = some (s.push v) := by
  simp [checkedPush, push]

@[simp]
theorem checkedPop_eq : s.checkedPop = some s.pop := by
  simp [checkedPop, pop]

@[simp]
theorem checkedCallTo_eq (a : UInt16) : s.checkedCallTo a = some (s.callTo a) := by
  simp [checkedCallTo, callTo]

@[simp]
theorem checkedReadPlace_eq (p : Place) : s.checkedReadPlace p = some (s.readPlace p) := by
  cases p <;> simp [checkedReadPlace, readPlace]

@[simp]
theorem checkedWritePlace_eq (p : Place) (v : UInt8) :
    s.checkedWritePlace p v = some (s.writePlace p v) := by
  cases p <;> simp [checkedWritePlace, writePlace]

@[simp]
theorem checkedReadOperand_eq (src : Operand) :
    s.checkedReadOperand src = some (s.readOperand src) := by
  cases src <;> simp [checkedReadOperand, readOperand]

@[simp]
theorem checkedResolve_eq (a : Address) : s.checkedResolve a = some (s.resolve a) := by
  cases a <;> simp [checkedResolve, resolve]

@[simp]
theorem checkedUpdate_eq (p : Place) (f : UInt8 → Flags → UInt8 × Flags) :
    s.checkedUpdate p f = some (s.update p f) := by
  simp [checkedUpdate, update]

@[simp]
theorem checkedFlags_eq (flags : Flags) :
    s.checkedFlags flags = some (s.mapCpu fun cpu => { cpu with flags }) := by
  simp [checkedFlags]

theorem and_bit_eq_zero (v : UInt8) (i : Fin 8) :
    (v &&& bitIf true (.ofNat i) == 0) = !testBit v i := by
  have hb : ∀ i : Fin 8, (bitIf true (.ofNat i)).toNat = 2 ^ i.val := by decide
  have ha : (v &&& bitIf true (.ofNat i)).toNat = (testBit v i).toNat * 2 ^ i.val := by
    rw [UInt8.toNat_and, hb, Nat.and_two_pow]
    rfl
  cases ht : testBit v i
  case false =>
    have hz : v &&& bitIf true (.ofNat i) = 0 := UInt8.toNat_inj.mp (by simp [ha, ht])
    simp [hz]
  case true =>
    have hz : v &&& bitIf true (.ofNat i) ≠ 0 := by
      intro hz
      have := congrArg UInt8.toNat hz
      simp [ha, ht] at this
    simp [hz]

@[simp]
theorem checkedExecute_eq (i : Instruction) : s.checkedExecute i = some (s.execute i) := by
  have hb (i : Fin 8) : checkedBit i = some (bitIf true (.ofNat i)) := checkedBit_eq i.isLt
  cases i
  case bit => simp [checkedExecute, execute, mapCpu, hb, and_bit_eq_zero]
  case res | set => simp [checkedExecute, execute, hb]
  case rst vector =>
    have hv : UInt16.ofNat (8 * vector) = 8 * .ofNat vector := by rw [UInt16.ofNat_mul]; rfl
    simp [checkedExecute, execute, Checked.mul_eq (by omega : 8 * vector.val < 1 <<< 16), hv]
  case call | ret =>
    simp only [checkedExecute, execute, checkedFetchWord_eq, checkedPop_eq, checkedCallTo_eq,
      Option.bind_eq_bind, Option.bind_some]
    split <;> rfl
  -- The flags were computed ahead of the update that stores them.
  all_goals simp [checkedExecute, execute, mapCpu]

@[simp]
theorem checkedVector_eq (line : Fin 5) : checkedVector line = some (vector line) := by
  rw [checkedVector, Checked.mul_eq (by omega)]
  simp only [Option.bind_eq_bind, Option.bind_some]
  rw [Checked.add_eq (by omega), vector]
  simp [UInt16.ofNat_add, UInt16.ofNat_mul]

theorem checkedDispatch_eq : s.checkedDispatch = some s.dispatch := by
  simp only [checkedDispatch, Board.checkedAcknowledge_eq, dispatch, checkedVector_eq,
    checkedCallTo_eq, Option.bind_eq_bind, Option.bind_some]
  split
  case isFalse => rfl
  case isTrue =>
    split
    case isFalse => rfl
    case isTrue =>
      cases Bus.acknowledge (s.mapCpu fun cpu => { cpu with halted := false }).bus with
      | mk line bus => cases line <;> rfl

theorem checkedExecuteNext_eq : s.checkedExecuteNext = some s.executeNext := by
  simp only [checkedExecuteNext, checkedFetch_eq, Instruction.checkedDecodeSecond_eq,
    Instruction.checkedDecode_eq, checkedExecute_eq, executeNext, Option.bind_eq_bind,
    Option.bind_some]
  split
  case isTrue => rfl
  case isFalse => cases Instruction.decode s.fetch.fst <;> rfl

theorem checkedStep_eq : s.checkedStep = some s.step := by
  simp only [checkedStep, checkedDispatch_eq, step, checkedExecuteNext_eq, Option.bind_eq_bind,
    Option.bind_some]
  cases s.dispatch with
  | mk served t =>
    cases served
    case true => rfl
    case false =>
      dsimp only
      split <;> rfl

end DotMatrix.Core
