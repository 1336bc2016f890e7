import DotMatrix.Cpu.Bus
import DotMatrix.Cpu.Instruction

namespace DotMatrix

namespace Core

variable {β : Type} [Bus β]

@[specialize]
def readPlace (s : Core β) : Place → UInt8 × Core β
  | .reg r => (s.cpu.get r, s)
  | .memHl => s.read s.cpu.hl

@[specialize]
def writePlace (s : Core β) (p : Place) (v : UInt8) : Core β :=
  match p with
  | .reg r => s.mapCpu fun cpu => cpu.set r v
  | .memHl => s.write s.cpu.hl v

@[specialize]
def readOperand (s : Core β) : Operand → UInt8 × Core β
  | .place p => s.readPlace p
  | .imm     => s.fetch

-- The first address of the page of device registers.
def devicePage : UInt16 := 0xff00

-- Forms an address, and steps HL if the address asks for it.
@[specialize]
def resolve (s : Core β) : Address → UInt16 × Core β
  | .bc      => (s.cpu.getPair .bc, s)
  | .de      => (s.cpu.getPair .de, s)
  | .hlInc   => (s.cpu.hl, s.mapCpu fun cpu => cpu.setPair .hl (cpu.hl + 1))
  | .hlDec   => (s.cpu.hl, s.mapCpu fun cpu => cpu.setPair .hl (cpu.hl - 1))
  | .imm     => s.fetchWord
  | .pageImm => let (low, s) := s.fetch; (devicePage ||| low.toUInt16, s)
  | .pageC   => (devicePage ||| s.cpu.c.toUInt16, s)

-- Replaces a byte by what `f` makes of it and the flags.
@[specialize]
def update (s : Core β) (p : Place) (f : UInt8 → Flags → UInt8 × Flags) : Core β :=
  let (v, s) := s.readPlace p
  let (v, flags) := f v s.cpu.flags
  (s.writePlace p v).mapCpu fun cpu => { cpu with flags }

-- The effect of an instruction, from the state in which its opcode has been fetched. Operands that
-- follow the opcode are fetched as part of it.
@[specialize]
def execute (s : Core β) : Instruction → Core β
  | .nop => s
  | .load dst src =>
    let (v, s) := s.readOperand src
    s.writePlace dst v
  | .loadA src =>
    let (a, s) := s.resolve src
    let (v, s) := s.read a
    s.mapCpu fun cpu => { cpu with a := v }
  | .storeA dst =>
    let (a, s) := s.resolve dst
    s.write a s.cpu.a
  | .loadPair rr =>
    let (v, s) := s.fetchWord
    s.mapCpu fun cpu => cpu.setPair rr v
  | .storeSp =>
    let (a, s) := s.fetchWord
    s.writeWord a s.cpu.sp
  | .copyHlToSp => s.mapCpu fun cpu => { cpu with sp := cpu.hl }
  | .offsetToHl =>
    let (offset, s) := s.fetch
    s.mapCpu fun cpu =>
      let (v, flags) := Arithmetic.addOffset cpu.sp offset
      { cpu.setPair .hl v with flags }
  | .offsetToSp =>
    let (offset, s) := s.fetch
    s.mapCpu fun cpu =>
      let (v, flags) := Arithmetic.addOffset cpu.sp offset
      { cpu with sp := v, flags }
  | .push rr => s.push (s.cpu.getPair rr)
  | .pop rr =>
    let (v, s) := s.pop
    s.mapCpu fun cpu => cpu.setPair rr v
  | .alu op src =>
    let (v, s) := s.readOperand src
    s.mapCpu fun cpu =>
      let (a, flags) := op.apply cpu.a v cpu.flags.carry
      { cpu with a, flags }
  | .inc p => s.update p Arithmetic.inc
  | .dec p => s.update p Arithmetic.dec
  | .incPair rr => s.mapCpu fun cpu => cpu.setPair rr (cpu.getPair rr + 1)
  | .decPair rr => s.mapCpu fun cpu => cpu.setPair rr (cpu.getPair rr - 1)
  | .addHl rr => s.mapCpu fun cpu =>
      let (v, flags) := Arithmetic.addWords cpu.hl (cpu.getPair rr) cpu.flags
      { cpu.setPair .hl v with flags }
  | .rotateA r => s.mapCpu fun cpu =>
      let (a, carry) := r.apply cpu.a cpu.flags.carry
      { cpu with a, flags := { carry } }
  | .shift op p => s.update p fun v flags => op.applyFlags v flags.carry
  | .bit i p =>
    let (v, s) := s.readPlace p
    s.mapCpu fun cpu =>
      { cpu with flags := { cpu.flags with zero := !testBit v i, sub := false, half := true } }
  | .res i p =>
    let (v, s) := s.readPlace p
    s.writePlace p (v &&& ~~~bitIf true (.ofNat i))
  | .set i p =>
    let (v, s) := s.readPlace p
    s.writePlace p (v ||| bitIf true (.ofNat i))
  | .daa => s.mapCpu fun cpu =>
      let (a, flags) := Arithmetic.decimalAdjust cpu.a cpu.flags
      { cpu with a, flags }
  | .cpl => s.mapCpu fun cpu =>
      { cpu with a := ~~~cpu.a, flags := { cpu.flags with sub := true, half := true } }
  | .scf => s.mapCpu fun cpu =>
      { cpu with flags := { cpu.flags with sub := false, half := false, carry := true } }
  | .ccf => s.mapCpu fun cpu =>
      { cpu with
        flags := { cpu.flags with sub := false, half := false, carry := !cpu.flags.carry } }
  | .jump cond =>
    let (a, s) := s.fetchWord
    if Condition.taken s.cpu.flags cond then s.jumpTo a else s
  | .jumpHl => s.jumpTo s.cpu.hl
  | .jumpRelative cond =>
    let (offset, s) := s.fetch
    if Condition.taken s.cpu.flags cond then s.jumpTo (s.cpu.pc + signExtend offset) else s
  | .call cond =>
    let (a, s) := s.fetchWord
    if Condition.taken s.cpu.flags cond then s.callTo a else s
  | .ret cond =>
    if Condition.taken s.cpu.flags cond then
      let (a, s) := s.pop
      s.jumpTo a
    else
      s
  | .reti =>
    let (a, s) := s.pop
    s.mapCpu fun cpu => { cpu with pc := a, ime := true }
  | .rst vector => s.callTo (8 * .ofNat vector)
  | .di => s.mapCpu fun cpu => { cpu with ime := false }
  | .ei => s.mapCpu fun cpu => { cpu with ime := true }
  | .halt => s.mapCpu fun cpu => { cpu with halted := true }
  -- The byte after the opcode is skipped; there is no low-power state.
  | .stop => s.fetch.2

end Core
end DotMatrix
