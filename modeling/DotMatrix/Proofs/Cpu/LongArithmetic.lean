import DotMatrix.Cpu.Flat
import DotMatrix.Proofs.Cpu.Fetch
import DotMatrix.Proofs.Digits

namespace DotMatrix

namespace Arithmetic

-- A sum of two bytes and a carry. The flags tell the carries of the byte and of its low nibble.
structure IsSum (a b : UInt8) (carry : Bool) (r : UInt8 × Flags) : Prop where
  byte   : Adds 256 a.toNat b.toNat carry r.1.toNat r.2.carry
  nibble : Adds 16 (a.toNat % 16) (b.toNat % 16) carry (r.1.toNat % 16) r.2.half
  sub    : r.2.sub = false
  zero   : r.2.zero = (r.1 == 0)

-- What is left when a byte and a borrow are taken away: together with them it makes up what there
-- was. The carries of that sum are the borrows that the flags tell.
structure IsDifference (a b : UInt8) (borrow : Bool) (r : UInt8 × Flags) : Prop where
  byte   : Adds 256 r.1.toNat b.toNat borrow a.toNat r.2.carry
  nibble : Adds 16 (r.1.toNat % 16) (b.toNat % 16) borrow (a.toNat % 16) r.2.half
  sub    : r.2.sub = true
  zero   : r.2.zero = (r.1 == 0)

theorem addWithCarry_isSum (a b : UInt8) (carry : Bool) :
    IsSum a b carry (addWithCarry a b carry) where
  byte := by
    have ha := a.toNat_lt
    have hb := b.toNat_lt
    have hc := carry.toNat_lt
    refine .of_ite ?_
    simp only [addWithCarry, UInt8.toNat_ofNat']
    split <;> omega
  nibble := by
    have hc := carry.toNat_lt
    refine .of_ite ?_
    simp only [addWithCarry, UInt8.toNat_ofNat']
    split <;> omega
  sub  := rfl
  zero := rfl

theorem subWithBorrow_isDifference (a b : UInt8) (borrow : Bool) :
    IsDifference a b borrow (subWithBorrow a b borrow) where
  byte := by
    have ha := a.toNat_lt
    have hb := b.toNat_lt
    have hc := borrow.toNat_lt
    refine .of_ite ?_
    simp only [subWithBorrow, UInt8.toNat_ofNat']
    split <;> omega
  nibble := by
    have hb := b.toNat_lt
    have hc := borrow.toNat_lt
    refine .of_ite ?_
    simp only [subWithBorrow, UInt8.toNat_ofNat']
    split <;> omega
  sub  := rfl
  zero := rfl

end Arithmetic

def AluOp.takesCarry : AluOp → Bool
  | adc | sbc => true
  | _         => false

-- An operation on the accumulator, as a program comes to it: the state in which its opcode has been
-- fetched, and where it finds its operand.
structure Operation (β : Type) where
  state : Core β
  op    : AluOp
  src   : Operand

namespace Operation

variable {β : Type}

def accumulator (u : Operation β) : UInt8 := u.state.cpu.a

-- The carry that the operation takes in.
def carryIn (u : Operation β) : Bool := u.op.takesCarry && u.state.cpu.flags.carry

-- The operations of a program on the bytes of two numbers, the lowest first: one, and then others
-- of one kind. Whatever the program does between two of them, it leaves the carry alone.
structure Chain {α : Type} (op next : AluOp) (use : α → Operation β) (out : α → Bool)
    (us : List α) : Prop where
  ops    : Led (fun u => (use u).op) op next us
  linked : us.IsChain fun u v => (use v).state.cpu.flags.carry = out u

namespace Chain

variable {α : Type} {use : α → Operation β} {out : α → Bool} {us : List α} {op next : AluOp}

theorem ne_nil (h : Chain op next use out us) : us ≠ [] := h.ops.ne_nil

theorem carryIn_head (h : Chain op next use out us) (ho : op.takesCarry = false) :
    (use (us.head h.ne_nil)).carryIn = false := by
  rw [carryIn, h.ops.head, ho, Bool.false_and]

theorem carryIn_linked (h : Chain op next use out us) (hn : next.takesCarry = true) :
    us.IsChain fun u v => (use v).carryIn = out u :=
  h.linked.imp_of_mem_tail_imp fun u v _ hv hc => by
    rw [carryIn, h.ops.tail v hv, hn, Bool.true_and, hc]

-- What the operations do to the digits they do to the whole numbers.
theorem adds (h : Chain op next use out us) (ho : op.takesCarry = false)
    (hn : next.takesCarry = true) {base : Nat} {x y sum : α → Nat}
    (hd : ∀ u ∈ us, Adds base (x u) (y u) (use u).carryIn (sum u) (out u)) :
    Adds (base ^ us.length) (Nat.ofDigits base (us.map x)) (Nat.ofDigits base (us.map y)) false
      (Nat.ofDigits base (us.map sum)) (out (us.getLast h.ne_nil)) := by
  rw [← h.carryIn_head ho]
  exact Adds.ofDigits h.ne_nil hd (h.carryIn_linked hn)

end Chain

section Program

variable {α : Type} {use : α → Operation β} {make : Operation β → α} {after : α → Core β}
  {out : α → Bool}

-- A program that loads the bytes of each pair into A and B and works on them.
def program (make : Operation β → α) (after : α → Core β) (op next : AluOp) :
    Core β → List (UInt8 × UInt8) → List α
  | _, []           => []
  | s, (a, b) :: ps =>
    let u := make {
      state := s.mapCpu fun cpu => { cpu with a, b }
      op
      src   := .place (.reg .b) }
    u :: program make after next next (after u) ps

theorem program_led (hu : ∀ u, use (make u) = u) (op next : AluOp) (s : Core β)
    (p : UInt8 × UInt8) (ps : List (UInt8 × UInt8)) :
    Led (fun u => (use u).op) op next (program make after op next s (p :: ps)) := by
  induction ps generalizing op s p with
  | nil => simp [Led, program, hu]
  | cons q ps ih =>
    rw [Led, program, List.map_cons, ih next, hu]
    rfl

-- Any two numbers of one length can be worked on, in every state.
theorem program_chain (hu : ∀ u, use (make u) = u) (ho : ∀ u, (after u).cpu.flags.carry = out u)
    (op next : AluOp) (s : Core β) (p : UInt8 × UInt8) (ps : List (UInt8 × UInt8)) :
    Chain op next use out (program make after op next s (p :: ps)) where
  ops    := program_led hu op next s p ps
  linked := by
    induction ps generalizing op s p with
    | nil => exact .singleton _
    | cons q ps ih =>
      refine .cons_cons ?_ (ih next _ q)
      rw [hu]
      exact ho _

end Program

variable [Bus β] (u : Operation β)

def operand : UInt8 := (u.state.readOperand u.src).fst

def after : Core β := u.state.execute (.alu u.op u.src)

-- The accumulator and the flags that the operation leaves.
def outcome : UInt8 × Flags := (u.after.cpu.a, u.after.cpu.flags)

def result : UInt8 := u.outcome.fst

def flags : Flags := u.outcome.snd

def carryOut : Bool := u.flags.carry

-- A step on such an instruction is such an operation.
theorem exists_of_next? {s : Core β} {op : AluOp} {src : Operand}
    (h : s.next? = some (.alu op src)) :
    ∃ u : Operation β, u.op = op ∧ u.src = src ∧ s.SameRegisters u.state ∧ s.step.2 = u.after := by
  obtain ⟨t, ht, he⟩ := s.step_of_next? h
  exact ⟨{ state := t, op, src }, rfl, rfl, ht, he⟩

theorem outcome_eq :
    u.outcome = u.op.apply u.accumulator u.operand u.state.cpu.flags.carry := by
  rcases u with ⟨s, op, (r | _) | _⟩ <;> rfl

variable {u}

theorem isSum (h : u.op = .add ∨ u.op = .adc) :
    Arithmetic.IsSum u.accumulator u.operand u.carryIn u.outcome := by
  have ho : u.outcome = Arithmetic.addWithCarry u.accumulator u.operand u.carryIn := by
    rw [u.outcome_eq, carryIn]
    rcases h with h | h <;> rw [h] <;> rfl
  exact ho ▸ Arithmetic.addWithCarry_isSum ..

theorem isDifference (h : u.op = .sub ∨ u.op = .sbc) :
    Arithmetic.IsDifference u.accumulator u.operand u.carryIn u.outcome := by
  have ho : u.outcome = Arithmetic.subWithBorrow u.accumulator u.operand u.carryIn := by
    rw [u.outcome_eq, carryIn]
    rcases h with h | h <;> rw [h] <;> rfl
  exact ho ▸ Arithmetic.subWithBorrow_isDifference ..

-- A comparison keeps the accumulator and tells what a subtraction would.
theorem outcome_compare (h : u.op = .cp) :
    u.outcome = (u.accumulator, { u with op := .sub }.flags) := by
  rw [u.outcome_eq, flags, outcome_eq, h]
  rfl

-- Addition and subtraction of numbers of any length. Every operation on the way tells of its own
-- byte, and so does a comparison.
theorem long_arithmetic :
    (∀ us : List (Operation β), ∀ h : Chain .add .adc id carryOut us,
      let x := Bytes.ofLittleEndian (us.map accumulator)
      let y := Bytes.ofLittleEndian (us.map operand)
      us.map result = Bytes.littleEndian us.length ((x + y) % 256 ^ us.length) ∧
        ((us.getLast h.ne_nil).carryOut = true ↔ 256 ^ us.length ≤ x + y) ∧
        ∀ u ∈ us, Arithmetic.IsSum u.accumulator u.operand u.carryIn u.outcome) ∧
    (∀ us : List (Operation β), ∀ h : Chain .sub .sbc id carryOut us,
      let x := Bytes.ofLittleEndian (us.map accumulator)
      let y := Bytes.ofLittleEndian (us.map operand)
      us.map result =
          Bytes.littleEndian us.length (((x : Int) - y) % (256 ^ us.length : Nat)).toNat ∧
        ((us.getLast h.ne_nil).carryOut = true ↔ x < y) ∧
        ∀ u ∈ us, Arithmetic.IsDifference u.accumulator u.operand u.carryIn u.outcome) ∧
    ∀ u : Operation β, u.op = .cp →
      u.outcome = (u.accumulator, { u with op := .sub }.flags) := by
  refine ⟨fun us h => ?sum, fun us h => ?difference, fun u => outcome_compare⟩
  case sum =>
    have ha := h.adds rfl rfl fun u hm => (isSum (h.ops.mem u hm)).byte
    simp only [id, ← Bytes.ofLittleEndian_map] at ha
    obtain ⟨hs, hc⟩ := ha.eq_mod (Bytes.ofLittleEndian_map_lt _ us)
    exact ⟨Bytes.map_eq_littleEndian hs, hc, fun u hm => isSum (h.ops.mem u hm)⟩
  case difference =>
    -- What is left makes up the first number together with the second one.
    have ha := h.adds rfl rfl fun u hm => (isDifference (h.ops.mem u hm)).byte
    simp only [id, ← Bytes.ofLittleEndian_map] at ha
    obtain ⟨hs, hc⟩ := ha.eq_sub_mod (Bytes.ofLittleEndian_map_lt _ us)
    exact ⟨Bytes.map_eq_littleEndian hs, hc, fun u hm => isDifference (h.ops.mem u hm)⟩

-- A carry goes into a byte that is full without it, and a borrow into one that is empty.
theorem long_arithmetic_full_and_empty :
    let s : Core Flat := { cpu := .postBoot, bus := {} }
    let us := program id after .add .adc s [(0x01, 0xff), (0xff, 0x00), (0x12, 0x00)]
    let vs := program id after .sub .sbc s [(0x00, 0x01), (0x00, 0x00), (0x12, 0x00)]
    let u : Operation Flat := { state := s, op := .cp, src := .place (.reg .b) }
    (Chain .add .adc id carryOut us ∧ us.map result = [0x00, 0x00, 0x13]) ∧
    (Chain .sub .sbc id carryOut vs ∧ vs.map result = [0xff, 0xff, 0x11]) ∧
    (u.op = .cp ∧ u.result = u.accumulator) := by
  intro s us vs u
  have hu : Chain .add .adc id carryOut us :=
    program_chain (fun _ => rfl) (fun _ => rfl) _ _ s _ _
  have hv : Chain .sub .sbc id carryOut vs :=
    program_chain (fun _ => rfl) (fun _ => rfl) _ _ s _ _
  have sum := long_arithmetic.1 us hu
  have difference := long_arithmetic.2.1 vs hv
  have compare := long_arithmetic.2.2 u rfl
  exact ⟨⟨hu, sum.1.trans (by decide +kernel)⟩, ⟨hv, difference.1.trans (by decide +kernel)⟩, rfl,
    congrArg Prod.fst compare⟩

end Operation

end DotMatrix
