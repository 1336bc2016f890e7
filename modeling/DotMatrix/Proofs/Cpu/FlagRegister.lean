import DotMatrix.Proofs.Cpu.KeptFlags
import DotMatrix.Proofs.Cpu.RegisterFile

namespace DotMatrix

-- Where an instruction finds a byte: in the array of registers, or where HL points.
inductive Slot
  | reg (i : Nat)
  | memHl
  deriving Repr, DecidableEq

-- The slot that three bits of an opcode name. Opcodes count the high byte of a pair first. Code 6
-- is the byte in memory and code 7 the accumulator, which by that count would be the flags.
def Slot.ofCode (code : Nat) : Slot :=
  match code % 8 with
  | 6    => memHl
  | 7    => reg Register.a.index
  | code => reg (code ^^^ 1)

def Place.slot : Place → Slot
  | .reg x => .reg x.index
  | .memHl => .memHl

-- The slot stands in one of the opcode's two fields, or is the accumulator.
def Slot.NamedBy (slot : Slot) (opcode : UInt8) : Prop :=
  slot = .reg Register.a.index ∨ slot = .ofCode (bitField opcode 3 3) ∨
    slot = .ofCode (bitField opcode 0 3)

instance (slot : Slot) (opcode : UInt8) : Decidable (slot.NamedBy opcode) :=
  inferInstanceAs (Decidable (_ ∨ _))

namespace Instruction

-- The bytes that the instruction names, the accumulator where it is understood included.
def places : Instruction → List Place
  | load dst (.place src)                                   => [dst, src]
  | load dst .imm                                           => [dst]
  | alu _ (.place src)                                      => [.reg .a, src]
  | alu _ .imm | loadA _ | storeA _ | rotateA _ | daa | cpl => [.reg .a]
  | inc p | dec p | shift _ p | bit _ p | res _ p | set _ p => [p]
  | _                                                       => []

-- No opcode names the byte of the flags.
theorem slot_of_decode {opcode : UInt8} {i : Instruction} {p : Place}
    (h : decode opcode = some i ∨ decodeSecond opcode = i) (hp : p ∈ i.places) :
    p.slot.NamedBy opcode ∧ p.slot ≠ .reg RegisterFile.flagIndex := by
  cases h
  case inl h =>
    have hd : ∀ opcode, ∀ i ∈ decode opcode, ∀ p ∈ i.places,
        p.slot.NamedBy opcode ∧ p.slot ≠ .reg RegisterFile.flagIndex := by decide +kernel
    exact hd opcode i h p hp
  case inr h =>
    have hd : ∀ opcode, ∀ p ∈ (decodeSecond opcode).places,
        p.slot.NamedBy opcode ∧ p.slot ≠ .reg RegisterFile.flagIndex := by decide +kernel
    exact hd opcode p (h ▸ hp)

end Instruction

-- A processor on its bus, with an array for registers.
structure ByteCore (β : Type) where
  regs   : RegisterFile
  pc     : UInt16
  ime    : Bool
  halted : Bool
  bus    : β

namespace ByteCore

variable {β : Type} [Bus β]

def read (s : ByteCore β) (a : UInt16) : UInt8 × ByteCore β :=
  let (v, bus) := Bus.read s.bus a
  (v, { s with bus })

def write (s : ByteCore β) (a : UInt16) (v : UInt8) : ByteCore β :=
  { s with bus := Bus.write s.bus a v }

def readWord (s : ByteCore β) (a : UInt16) : UInt16 × ByteCore β :=
  let (low, s) := s.read a
  let (high, s) := s.read (a + 1)
  (word low high, s)

def writeWord (s : ByteCore β) (a v : UInt16) : ByteCore β :=
  (s.write a (lowByte v)).write (a + 1) (highByte v)

def fetch (s : ByteCore β) : UInt8 × ByteCore β :=
  let (v, s) := s.read s.pc
  (v, { s with pc := s.pc + 1 })

def fetchWord (s : ByteCore β) : UInt16 × ByteCore β :=
  let (v, s) := s.readWord s.pc
  (v, { s with pc := s.pc + 2 })

def withRegs (s : ByteCore β) (regs : RegisterFile) : ByteCore β := { s with regs }

def mapRegs (s : ByteCore β) (f : RegisterFile → RegisterFile) : ByteCore β :=
  s.withRegs (f s.regs)

def getPair (s : ByteCore β) (rr : Pair) : UInt16 := s.regs.getPair rr

def setPair (s : ByteCore β) (rr : Pair) (v : UInt16) : ByteCore β :=
  s.mapRegs fun r => r.setPair rr v

def push (s : ByteCore β) (v : UInt16) : ByteCore β :=
  let s := s.setPair .sp (s.getPair .sp - 2)
  s.writeWord (s.getPair .sp) v

def pop (s : ByteCore β) : UInt16 × ByteCore β :=
  let (v, s) := s.readWord (s.getPair .sp)
  (v, s.setPair .sp (s.getPair .sp + 2))

def callTo (s : ByteCore β) (a : UInt16) : ByteCore β := { s.push s.pc with pc := a }

def readPlace (s : ByteCore β) (p : Place) : UInt8 × ByteCore β :=
  match p.slot with
  | .reg i => (s.regs.get i, s)
  | .memHl => s.read (s.getPair .hl)

def writePlace (s : ByteCore β) (p : Place) (v : UInt8) : ByteCore β :=
  match p.slot with
  | .reg i => s.mapRegs fun r => r.set i v
  | .memHl => s.write (s.getPair .hl) v

def readOperand (s : ByteCore β) : Operand → UInt8 × ByteCore β
  | .place p => s.readPlace p
  | .imm     => s.fetch

def resolve (s : ByteCore β) : Address → UInt16 × ByteCore β
  | .bc      => (s.getPair .bc, s)
  | .de      => (s.getPair .de, s)
  | .hlInc   => (s.getPair .hl, s.setPair .hl (s.getPair .hl + 1))
  | .hlDec   => (s.getPair .hl, s.setPair .hl (s.getPair .hl - 1))
  | .imm     => s.fetchWord
  | .pageImm => let (low, s) := s.fetch; (Core.devicePage ||| low.toUInt16, s)
  | .pageC   => (Core.devicePage ||| (s.regs.get Register.c.index).toUInt16, s)

def taken (s : ByteCore β) : Option Condition → Bool
  | none     => true
  | some .nz => !s.regs.flag .zero
  | some .z  => s.regs.flag .zero
  | some .nc => !s.regs.flag .carry
  | some .c  => s.regs.flag .carry

-- A byte is written to its place before the flags change, so a place among the flags would show.
def execute (s : ByteCore β) : Instruction → ByteCore β
  | .nop => s
  | .load dst src =>
    let (v, s) := s.readOperand src
    s.writePlace dst v
  | .loadA src =>
    let (a, s) := s.resolve src
    let (v, s) := s.read a
    s.mapRegs fun r => r.setA v
  | .storeA dst =>
    let (a, s) := s.resolve dst
    s.write a s.regs.a
  | .loadPair rr =>
    let (v, s) := s.fetchWord
    s.setPair rr v
  | .storeSp =>
    let (a, s) := s.fetchWord
    s.writeWord a (s.getPair .sp)
  | .copyHlToSp => s.setPair .sp (s.getPair .hl)
  | .offsetToHl =>
    let (offset, s) := s.fetch
    let (v, regs) := s.regs.offsetSp offset
    (s.withRegs regs).setPair .hl v
  | .offsetToSp =>
    let (offset, s) := s.fetch
    let (v, regs) := s.regs.offsetSp offset
    (s.withRegs regs).setPair .sp v
  | .push rr => s.push (s.getPair rr)
  | .pop rr =>
    let (v, s) := s.pop
    s.setPair rr v
  | .alu op src =>
    let (v, s) := s.readOperand src
    s.mapRegs fun r => r.alu op v
  | .inc p =>
    let (v, s) := s.readPlace p
    (s.writePlace p (v + 1)).mapRegs fun r => r.incFlags (v + 1)
  | .dec p =>
    let (v, s) := s.readPlace p
    (s.writePlace p (v - 1)).mapRegs fun r => r.decFlags (v - 1)
  | .incPair rr => s.setPair rr (s.getPair rr + 1)
  | .decPair rr => s.setPair rr (s.getPair rr - 1)
  | .addHl rr => s.mapRegs fun r => r.addHl rr
  | .rotateA op => s.mapRegs fun r => r.rotateA op
  | .shift op p =>
    let (v, s) := s.readPlace p
    let (v, out) := op.apply v (s.regs.flag .carry)
    (s.writePlace p v).mapRegs fun r => r.shiftFlags v out
  | .bit i p =>
    let (v, s) := s.readPlace p
    s.mapRegs fun r => r.bitFlags (testBit v i)
  | .res i p =>
    let (v, s) := s.readPlace p
    s.writePlace p (v &&& ~~~bitIf true (.ofNat i))
  | .set i p =>
    let (v, s) := s.readPlace p
    s.writePlace p (v ||| bitIf true (.ofNat i))
  | .daa => s.mapRegs (·.daa)
  | .cpl => s.mapRegs (·.cpl)
  | .scf => s.mapRegs (·.scf)
  | .ccf => s.mapRegs (·.ccf)
  | .jump cond =>
    let (a, s) := s.fetchWord
    if s.taken cond then { s with pc := a } else s
  | .jumpHl => { s with pc := s.getPair .hl }
  | .jumpRelative cond =>
    let (offset, s) := s.fetch
    if s.taken cond then { s with pc := s.pc + signExtend offset } else s
  | .call cond =>
    let (a, s) := s.fetchWord
    if s.taken cond then s.callTo a else s
  | .ret cond =>
    if s.taken cond then
      let (a, s) := s.pop
      { s with pc := a }
    else
      s
  | .reti =>
    let (a, s) := s.pop
    { s with pc := a, ime := true }
  | .rst vector => s.callTo (8 * .ofNat vector)
  | .di => { s with ime := false }
  | .ei => { s with ime := true }
  | .halt => { s with halted := true }
  | .stop => s.fetch.2

-- The ticks of an instruction. Some depend on the flags.
def cost (s : ByteCore β) (i : Instruction) : Nat := i.cost (.ofByte s.regs.flagByte)

def dispatch (s : ByteCore β) : Bool × ByteCore β :=
  if Bus.pending s.bus then
    let s := { s with halted := false }
    if s.ime then
      match Bus.acknowledge s.bus with
      | (some line, bus) => (true, { s with bus, ime := false }.callTo (Core.vector line))
      | (none, bus)      => (false, { s with bus })
    else
      (false, s)
  else
    (false, s)

def executeNext (s : ByteCore β) : Except IllegalInstruction Nat × ByteCore β :=
  let pc := s.pc
  let (opcode, s) := s.fetch
  if opcode = Instruction.secondTable then
    let (opcode, s) := s.fetch
    let i := Instruction.decodeSecond opcode
    (.ok (s.cost i), s.execute i)
  else
    match Instruction.decode opcode with
    | some i => (.ok (s.cost i), s.execute i)
    | none   => (.error { opcode, pc }, { s with pc })

def step (s : ByteCore β) : Except IllegalInstruction Nat × ByteCore β :=
  match s.dispatch with
  | (true, s)  => (.ok Core.dispatchCost, s)
  | (false, s) => if s.halted then (.ok Core.haltCost, s) else s.executeNext

def postBoot (bus : β) : ByteCore β where
  regs   := .postBoot
  pc     := 0x0100
  ime    := false
  halted := false
  bus    := bus

def run (bus : β) (works : List (β → β)) : ByteCore β :=
  works.foldl (fun s work => { s.step.2 with bus := work s.step.2.bus }) (postBoot bus)

-- The processor with its registers moved to an array.
def ofCore (s : Core β) : ByteCore β where
  regs   := .ofCpu s.cpu
  pc     := s.cpu.pc
  ime    := s.cpu.ime
  halted := s.cpu.halted
  bus    := s.bus

variable (s : Core β)

omit [Bus β] in
theorem getPair_ofCore (rr : Pair) : (ofCore s).getPair rr = s.cpu.getPair rr :=
  RegisterFile.getPair_ofCpu ..

omit [Bus β] in
theorem setPair_ofCore (rr : Pair) (v : UInt16) :
    (ofCore s).setPair rr v = ofCore (s.mapCpu fun cpu => cpu.setPair rr v) := by
  have h : (ofCore s).setPair rr v = (ofCore s).withRegs (.ofCpu (s.cpu.setPair rr v)) :=
    congrArg (ofCore s).withRegs (RegisterFile.setPair_ofCpu ..)
  rw [h]
  cases rr <;> rfl

theorem fetch_ofCore : (ofCore s).fetch = s.fetch.map id ofCore :=
  rfl

theorem fetchWord_ofCore : (ofCore s).fetchWord = s.fetchWord.map id ofCore :=
  rfl

theorem push_ofCore (v : UInt16) : (ofCore s).push v = ofCore (s.push v) :=
  rfl

theorem pop_ofCore : (ofCore s).pop = s.pop.map id ofCore :=
  rfl

theorem readPlace_ofCore (p : Place) : (ofCore s).readPlace p = (s.readPlace p).map id ofCore := by
  cases p
  case reg x => exact congrArg (·, ofCore s) (RegisterFile.get_ofCpu ..)
  case memHl => rfl

theorem writePlace_ofCore (p : Place) (v : UInt8) :
    (ofCore s).writePlace p v = ofCore (s.writePlace p v) := by
  cases p
  case reg x => cases x <;> rfl
  case memHl => rfl

theorem readOperand_ofCore (src : Operand) :
    (ofCore s).readOperand src = (s.readOperand src).map id ofCore := by
  cases src
  case place p => exact readPlace_ofCore s p
  case imm     => rfl

theorem resolve_ofCore (a : Address) : (ofCore s).resolve a = (s.resolve a).map id ofCore := by
  cases a <;> rfl

omit [Bus β] in
theorem flag_ofCore (flag : Flag) : (ofCore s).regs.flag flag = s.cpu.flags.get flag :=
  RegisterFile.flag_ofCpu ..

omit [Bus β] in
theorem taken_ofCore (cond : Option Condition) :
    (ofCore s).taken cond = Condition.taken s.cpu.flags cond := by
  cases cond
  case none => rfl
  case some cond =>
    simp only [taken, flag_ofCore]
    cases cond <;> rfl

-- A byte is changed in its place, then the flags are.
theorem writeFlags_ofCore (p : Place) (v : UInt8) {f : RegisterFile → RegisterFile}
    {g : Flags → Flags}
    (h : ∀ cpu, f (.ofCpu cpu) = .ofCpu { cpu with flags := g cpu.flags }) :
    ((ofCore s).writePlace p v).mapRegs f =
      ofCore ((s.writePlace p v).mapCpu fun cpu => { cpu with flags := g s.cpu.flags }) := by
  rw [writePlace_ofCore, ← s.flags_writePlace p v]
  exact congrArg (ofCore (s.writePlace p v)).withRegs (h _)

section Execute

variable {i : Instruction}

theorem execute_ofCore_move (hk : i.kind = .move) :
    (ofCore s).execute i = ofCore (s.execute i) := by
  cases i with
  | load dst src =>
    rw [execute, readOperand_ofCore]
    exact writePlace_ofCore ..
  | loadA src | storeA src =>
    rw [execute, resolve_ofCore]
    rfl
  | loadPair rr =>
    rw [execute, fetchWord_ofCore]
    exact setPair_ofCore ..
  | storeSp | copyHlToSp => rfl
  | push rr =>
    rw [execute, getPair_ofCore]
    exact push_ofCore ..
  | pop rr =>
    rw [execute, pop_ofCore]
    exact setPair_ofCore ..
  | _ => cases hk

theorem execute_ofCore_word (hk : i.kind = .word) :
    (ofCore s).execute i = ofCore (s.execute i) := by
  cases i with
  | offsetToHl | offsetToSp =>
    rw [execute, fetch_ofCore, Core.execute]
    rcases s.fetch with ⟨offset, t⟩
    have h : (ofCore t).regs.offsetSp offset = _ := RegisterFile.offsetSp_ofCpu ..
    simp only [Prod.map, id, h]
    rfl
  | incPair rr | decPair rr =>
    -- Left to `rfl`, the sums would be taken apart to their bits.
    simp only [execute, Core.execute, Core.mapCpu, getPair_ofCore, setPair_ofCore]
  | addHl rr => exact congrArg (ofCore s).withRegs (RegisterFile.addHl_ofCpu ..)
  | _ => cases hk

theorem execute_ofCore_byte (hk : i.kind = .byte) :
    (ofCore s).execute i = ofCore (s.execute i) := by
  cases i with
  | alu op src =>
    rw [execute, readOperand_ofCore]
    exact congrArg (ofCore (s.readOperand src).2).withRegs (RegisterFile.alu_ofCpu ..)
  | inc p =>
    rw [execute, readPlace_ofCore, Core.execute, Core.update]
    rcases s.readPlace p with ⟨v, t⟩
    exact writeFlags_ofCore t p (v + 1) (g := fun flags => (Arithmetic.inc v flags).2)
      (RegisterFile.incFlags_ofCpu · v)
  | dec p =>
    rw [execute, readPlace_ofCore, Core.execute, Core.update]
    rcases s.readPlace p with ⟨v, t⟩
    exact writeFlags_ofCore t p (v - 1) (g := fun flags => (Arithmetic.dec v flags).2)
      (RegisterFile.decFlags_ofCpu · v)
  | shift op p =>
    rw [execute, readPlace_ofCore, Core.execute, Core.update]
    rcases s.readPlace p with ⟨v, t⟩
    simp only [Prod.map, id, flag_ofCore]
    exact writeFlags_ofCore t p _ (g := fun _ => (op.applyFlags v t.cpu.flags.carry).2)
      (RegisterFile.shiftFlags_ofCpu · _ _)
  | rotateA op => exact congrArg (ofCore s).withRegs (RegisterFile.rotateA_ofCpu ..)
  | daa        => exact congrArg (ofCore s).withRegs (RegisterFile.daa_ofCpu ..)
  | cpl        => exact congrArg (ofCore s).withRegs (RegisterFile.cpl_ofCpu ..)
  | scf        => exact congrArg (ofCore s).withRegs (RegisterFile.scf_ofCpu ..)
  | ccf        => exact congrArg (ofCore s).withRegs (RegisterFile.ccf_ofCpu ..)
  | _ => cases hk

theorem execute_ofCore_bit (hk : i.kind = .bit) :
    (ofCore s).execute i = ofCore (s.execute i) := by
  cases i with
  | bit i p =>
    rw [execute, readPlace_ofCore]
    exact congrArg (ofCore (s.readPlace p).2).withRegs (RegisterFile.setButCarry_ofCpu ..)
  | res i p | set i p =>
    rw [execute, readPlace_ofCore]
    exact writePlace_ofCore ..
  | _ => cases hk

theorem execute_ofCore_branch (hk : i.kind = .branch) :
    (ofCore s).execute i = ofCore (s.execute i) := by
  cases i with
  | jump cond | call cond =>
    rw [execute, fetchWord_ofCore, Core.execute]
    rcases s.fetchWord with ⟨a, t⟩
    simp only [Prod.map, taken_ofCore]
    split <;> rfl
  | jumpRelative cond =>
    rw [execute, fetch_ofCore, Core.execute]
    rcases s.fetch with ⟨offset, t⟩
    simp only [Prod.map, taken_ofCore]
    split <;> rfl
  | ret cond =>
    rw [execute, taken_ofCore, Core.execute]
    split <;> rfl
  | jumpHl | reti | rst vector => rfl
  | _ => cases hk

theorem execute_ofCore_control (hk : i.kind = .control) :
    (ofCore s).execute i = ofCore (s.execute i) := by
  cases i with
  | nop | di | ei | halt | stop => rfl
  | _ => cases hk

theorem execute_ofCore (i : Instruction) : (ofCore s).execute i = ofCore (s.execute i) := by
  cases hk : i.kind
  case move    => exact execute_ofCore_move s hk
  case word    => exact execute_ofCore_word s hk
  case byte    => exact execute_ofCore_byte s hk
  case bit     => exact execute_ofCore_bit s hk
  case branch  => exact execute_ofCore_branch s hk
  case control => exact execute_ofCore_control s hk

end Execute

theorem dispatch_ofCore : (ofCore s).dispatch = s.dispatch.map id ofCore := by
  have hb : (ofCore s).bus = s.bus := rfl
  have hm : (ofCore s).ime = s.cpu.ime := rfl
  simp only [dispatch, Core.dispatch, Core.mapCpu, hb, hm]
  by_cases hp : Bus.pending s.bus
  case neg =>
    simp only [hp, Bool.false_eq_true, ↓reduceIte]
    rfl
  case pos =>
    by_cases hi : s.cpu.ime
    case neg =>
      simp only [hp, hi, Bool.false_eq_true, ↓reduceIte]
      rfl
    case pos =>
      simp only [hp, hi, ↓reduceIte]
      rcases Bus.acknowledge s.bus with ⟨_ | line, bus⟩ <;> rfl

omit [Bus β] in
theorem cost_ofCore (i : Instruction) : (ofCore s).cost i = i.cost s.cpu.flags :=
  congrArg i.cost s.cpu.flags.ofByte_toByte

theorem executeNext_ofCore : (ofCore s).executeNext = s.executeNext.map id ofCore := by
  rw [executeNext, Core.executeNext, fetch_ofCore]
  rcases s.fetch with ⟨opcode, t⟩
  simp only [Prod.map, id, fetch_ofCore, cost_ofCore, execute_ofCore]
  by_cases hs : opcode = Instruction.secondTable
  case pos =>
    rw [if_pos hs, if_pos hs]
  case neg =>
    rw [if_neg hs, if_neg hs]
    cases Instruction.decode opcode <;> rfl

theorem step_ofCore : (ofCore s).step = s.step.map id ofCore := by
  rw [step, Core.step, dispatch_ofCore]
  rcases s.dispatch with ⟨_ | _, t⟩
  case true  => rfl
  case false =>
    have hh : (ofCore t).halted = t.cpu.halted := rfl
    simp only [Prod.map, id, executeNext_ofCore, hh]
    cases t.cpu.halted <;> rfl

theorem run_ofCore (bus : β) (works : List (β → β)) :
    run bus works = ofCore (Core.run bus works) := by
  have hb : postBoot bus = ofCore { cpu := .postBoot, bus } :=
    congrArg (postBoot bus).withRegs RegisterFile.ofCpu_postBoot.symm
  rw [run, hb, Core.run]
  refine List.foldl_hom ofCore fun s work => ?_
  rw [step_ofCore]
  rfl

-- On every bus, whatever comes in between the steps: the low nibble of the flags stays clear, and
-- only an instruction about flags changes their byte. No opcode names it as an operand.
theorem flags_of_run (bus : β) (works : List (β → β)) :
    run bus works = ofCore (Core.run bus works) ∧
    let s := Core.run bus works
    let t := run bus works
    t.step = s.step.map id ofCore ∧
    t.regs.flagByte &&& 0x0f = 0 ∧
    ((∀ i ∈ s.next?, i.keepsFlags) → t.step.2.regs.flagByte = t.regs.flagByte) ∧
    ∀ {opcode i p}, Instruction.decode opcode = some i ∨ Instruction.decodeSecond opcode = i →
      p ∈ i.places → p.slot.NamedBy opcode ∧ p.slot ≠ .reg RegisterFile.flagIndex := by
  refine ⟨run_ofCore bus works, ?_⟩
  intro s t
  have ht : t = ofCore s := run_ofCore bus works
  have hs : t.step = s.step.map id ofCore := ht ▸ step_ofCore s
  refine ⟨hs, ?low, fun h => ?kept, Instruction.slot_of_decode⟩
  case low => exact ht ▸ s.cpu.flags.toByte_low
  case kept =>
    rw [hs, ht]
    exact congrArg Flags.toByte (s.flags_step h)

end ByteCore
end DotMatrix
