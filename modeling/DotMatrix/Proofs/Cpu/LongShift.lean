import DotMatrix.Proofs.Cpu.Cells
import DotMatrix.Proofs.Cpu.Fetch
import DotMatrix.Proofs.Digits
import Mathlib.Data.FinEnum

namespace DotMatrix

namespace Bytes

-- The sign of a number is that of its highest byte.
theorem testBit_head {bs : List UInt8} (hn : bs ≠ []) :
    testBit (bs.head hn) 7 = true ↔ 256 ^ bs.length ≤ ofBigEndian bs + ofBigEndian bs := by
  obtain ⟨b, bs, rfl⟩ := List.exists_cons_of_ne_nil hn
  have hl := ofLittleEndian_map_lt id bs.reverse
  have hb := testBit_top Nat.one_ne_zero b.toNat_lt
  rw [List.map_id, List.length_reverse] at hl
  rw [ofBigEndian, List.reverse_cons, ofLittleEndian_concat, List.length_reverse,
    List.length_cons, List.head_cons, pow_succ, testBit, hb, pow_one]
  generalize ofLittleEndian bs.reverse = low at hl ⊢
  generalize 256 ^ bs.length = place at hl ⊢
  constructor
  case mp =>
    intro hb
    have hm : place * 128 ≤ place * b.toNat := Nat.mul_le_mul_left _ (by omega)
    omega
  case mpr =>
    intro hs
    by_contra hb
    have hm : place * b.toNat ≤ place * 127 := Nat.mul_le_mul_left _ (by omega)
    omega

end Bytes

namespace Shift

-- The bit that comes into the byte.
def entering (op : Shift) (v : UInt8) (carry : Bool) : Bool :=
  match op with
  | .rotate .rl | .rotate .rr => carry
  | .rotate .rlc | .sra       => testBit v 7
  | .rotate .rrc              => testBit v 0
  | .sla | .swap | .srl       => false

def isLeft : Shift → Bool
  | .sla | .rotate .rl | .rotate .rlc => true
  | _                                 => false

def isRight : Shift → Bool
  | .sra | .srl | .rotate .rr | .rotate .rrc => true
  | _                                        => false

-- A shift to the left adds the byte to itself.
theorem adds_of_isLeft {op : Shift} (h : op.isLeft) (v : UInt8) (carry : Bool) :
    Adds 256 v.toNat v.toNat (op.entering v carry) (op.apply v carry).1.toNat
      (op.apply v carry).2 := by
  revert v carry
  rcases op with (_ | _ | _ | _) | _ | _ | _ | _
  case sla | rotate.rl | rotate.rlc => decide +kernel
  all_goals contradiction

-- A shift to the right is the opposite of one to the left.
theorem adds_of_isRight {op : Shift} (h : op.isRight) (v : UInt8) (carry : Bool) :
    Adds 256 (op.apply v carry).1.toNat (op.apply v carry).1.toNat (op.apply v carry).2 v.toNat
      (op.entering v carry) := by
  revert v carry
  rcases op with (_ | _ | _ | _) | _ | _ | _ | _
  case sra | srl | rotate.rr | rotate.rrc => decide +kernel
  all_goals contradiction

end Shift

namespace Rotation

-- The rotation the other way.
def inverse : Rotation → Rotation
  | rlc => rrc
  | rrc => rlc
  | rl  => rr
  | rr  => rl

-- Through the carry flag, the carry comes back as well.
theorem apply_inverse_through {r : Rotation} (h : r = .rl ∨ r = .rr) (v : UInt8) (carry : Bool) :
    r.inverse.apply (r.apply v carry).1 (r.apply v carry).2 = (v, carry) := by
  revert v carry
  rcases h with rfl | rfl <;> decide +kernel

-- Past it, the carry does not matter.
theorem apply_inverse_past {r : Rotation} (h : r = .rlc ∨ r = .rrc) (v : UInt8)
    (carry other : Bool) : (r.inverse.apply (r.apply v carry).1 other).1 = v := by
  revert v carry other
  rcases h with rfl | rfl <;> decide +kernel

end Rotation

theorem Shift.apply_swap_swap (v : UInt8) (carry other : Bool) :
    (Shift.swap.apply (Shift.swap.apply v carry).1 other).1 = v := by
  revert v carry other
  decide +kernel

-- A shift of a byte in its place, as a program comes to it: the state in which its opcode has been
-- fetched.
structure ShiftUse (β : Type) where
  state : Core β
  op    : Shift
  place : Place

namespace ShiftUse

variable {β : Type} [Bus β] (u : ShiftUse β)

def cell : Cell := u.state.cell u.place

def carryIn : Bool := u.state.cpu.flags.carry

def after : Core β := u.state.execute (.shift u.op u.place)

def found : UInt8 := u.state.peek u.cell

def left : UInt8 := u.after.peek u.cell

def carryOut : Bool := u.after.cpu.flags.carry

def entering : Bool := u.op.entering u.found u.carryIn

-- A step on such an instruction is such a shift.
theorem exists_of_next? {s : Core β} {op : Shift} {place : Place}
    (h : s.next? = some (.shift op place)) :
    ∃ u : ShiftUse β, u.op = op ∧ u.place = place ∧ s.SameRegisters u.state ∧
      s.step.2 = u.after := by
  obtain ⟨t, ht, he⟩ := s.step_of_next? h
  exact ⟨{ state := t, op, place }, rfl, rfl, ht, he⟩

-- If the byte is in memory, that holds it among the others.
def Holds (cells : List Cell) : Prop :=
  ∀ a c, u.cell = .mem a → .mem c ∈ cells → Bus.Holds u.state.bus a c

variable {u} {cells : List Cell}

theorem carryOut_eq : u.carryOut = (u.op.apply u.found u.carryIn).2 :=
  congrArg Flags.carry (u.state.flags_update u.place _)

theorem peek_after (h : u.Holds cells) {c : Cell} (hc : c ∈ cells) :
    u.after.peek c =
      if c = u.cell then (u.op.apply u.found u.carryIn).1 else u.state.peek c :=
  u.state.peek_update u.place _ fun a x ha hx => h a x ha (hx ▸ hc)

theorem left_eq (h : u.Holds cells) (hc : u.cell ∈ cells) :
    u.left = (u.op.apply u.found u.carryIn).1 :=
  (peek_after h hc).trans (if_pos rfl)

-- Whatever a program does from one shift to the next, it leaves the carry and the bytes alone.
def Follows (cells : List Cell) (u v : ShiftUse β) : Prop :=
  v.carryIn = u.carryOut ∧ ∀ c ∈ cells, v.state.peek c = u.after.peek c

-- The shifts of a program on the bytes of a number, one and then others of one kind.
structure Chain (first next : Shift) (us : List (ShiftUse β)) : Prop where
  ops    : Led (·.op) first next us
  linked : us.IsChain (Follows (us.map cell))
  holds  : ∀ u ∈ us, u.Holds (us.map cell)
  nodup  : (us.map cell).Nodup

namespace Chain

variable {first next : Shift} {us : List (ShiftUse β)}

theorem ne_nil (h : Chain first next us) : us ≠ [] := h.ops.ne_nil

theorem left_eq (h : Chain first next us) {u : ShiftUse β} (hm : u ∈ us) :
    u.left = (u.op.apply u.found u.carryIn).1 :=
  ShiftUse.left_eq (h.holds u hm) (List.mem_map_of_mem hm)

theorem peek_after_of_ne (h : Chain first next us) :
    ∀ u ∈ us, ∀ c ∈ us.map cell, c ≠ u.cell → u.after.peek c = u.state.peek c :=
  fun u hm _ hc hne => (peek_after (h.holds u hm) hc).trans (if_neg hne)

-- The program finds what was in the cells before it.
theorem map_peek_head (h : Chain first next us) :
    (us.map cell).map (us.head h.ne_nil).state.peek = us.map found := by
  rw [List.map_map]
  refine (List.map_congr_left ?_).symm
  exact eq_head_of_isChain h.ne_nil (h.linked.imp fun _ _ h => h.2) h.peek_after_of_ne
    (fun _ hm => List.mem_map_of_mem hm) h.nodup

-- What it leaves is in the cells after it.
theorem map_peek_getLast (h : Chain first next us) :
    (us.map cell).map (us.getLast h.ne_nil).after.peek = us.map left := by
  rw [List.map_map]
  refine (List.map_congr_left ?_).symm
  exact eq_getLast_of_isChain h.ne_nil (h.linked.imp fun _ _ h => h.2) h.peek_after_of_ne
    (fun _ hm => List.mem_map_of_mem hm) h.nodup

theorem entering_linked (h : Chain first next us) (hn : next = .rotate .rl ∨ next = .rotate .rr) :
    us.IsChain fun u v => u.carryOut = v.entering :=
  h.linked.imp_of_mem_tail_imp fun u v _ hv hf => by
    rw [← hf.1, entering, h.ops.tail v hv]
    rcases hn with rfl | rfl <;> rfl

theorem adds_left (h : Chain .sla (.rotate .rl) us) :
    Adds (256 ^ us.length) (Bytes.ofLittleEndian (us.map found))
      (Bytes.ofLittleEndian (us.map found)) false (Bytes.ofLittleEndian (us.map left))
      (us.getLast h.ne_nil).carryOut := by
  have hd : ∀ u ∈ us, Adds 256 u.found.toNat u.found.toNat u.entering u.left.toNat u.carryOut := by
    intro u hm
    rw [h.left_eq hm, carryOut_eq]
    refine Shift.adds_of_isLeft ?_ u.found u.carryIn
    rcases h.ops.mem u hm with ho | ho <;> rw [ho] <;> rfl
  have he : (us.head h.ne_nil).entering = false := by
    rw [entering, h.ops.head]
    rfl
  have ha := Adds.ofDigits h.ne_nil hd ((h.entering_linked (.inl rfl)).imp fun _ _ h => h.symm)
  rw [he] at ha
  simpa only [← Bytes.ofLittleEndian_map] using ha

theorem adds_right (h : Chain first (.rotate .rr) us) (hf : first.isRight) :
    Adds (256 ^ us.length) (Bytes.ofBigEndian (us.map left)) (Bytes.ofBigEndian (us.map left))
      (us.getLast h.ne_nil).carryOut (Bytes.ofBigEndian (us.map found))
      (us.head h.ne_nil).entering := by
  have hd : ∀ u ∈ us, Adds 256 u.left.toNat u.left.toNat u.carryOut u.found.toNat u.entering := by
    intro u hm
    rw [h.left_eq hm, carryOut_eq]
    refine Shift.adds_of_isRight ?_ u.found u.carryIn
    rcases h.ops.mem u hm with ho | ho <;> rw [ho]
    · exact hf
    · rfl
  have ha := Adds.ofDigits_reverse h.ne_nil hd (h.entering_linked (.inr rfl))
  simpa only [← Bytes.ofBigEndian_map] using ha

theorem double (h : Chain .sla (.rotate .rl) us) :
    let x := Bytes.ofLittleEndian (us.map found)
    us.map left = Bytes.littleEndian us.length (2 * x % 256 ^ us.length) ∧
      (us.getLast h.ne_nil).carryOut = x.testBit (8 * us.length - 1) := by
  have hn : us.length ≠ 0 := List.length_eq_zero_iff.not.mpr h.ne_nil
  have hx := Bytes.ofLittleEndian_map_lt found us
  obtain ⟨hs, hc⟩ := h.adds_left.eq_mod (Bytes.ofLittleEndian_map_lt left us)
  rw [← Nat.two_mul] at hs
  exact ⟨Bytes.map_eq_littleEndian hs,
    Bool.eq_iff_iff.mpr (hc.trans (Bytes.testBit_top hn hx).symm)⟩

theorem half (h : Chain .srl (.rotate .rr) us) :
    let x := Bytes.ofBigEndian (us.map found)
    us.map left = Bytes.bigEndian us.length (x / 2) ∧
      (us.getLast h.ne_nil).carryOut = x.testBit 0 := by
  have he : (us.head h.ne_nil).entering = false := by
    rw [entering, h.ops.head]
    rfl
  have ha := h.adds_right rfl
  rw [he] at ha
  obtain ⟨hs, hc⟩ := ha.eq_half
  exact ⟨Bytes.map_eq_bigEndian hs, hc⟩

-- The bit that comes in is the sign of the number.
theorem half_signed (h : Chain .sra (.rotate .rr) us) :
    let x := Bytes.ofBigEndian (us.map found)
    let base := 256 ^ us.length
    us.map left = Bytes.bigEndian us.length ((x : Int).bmod base / 2 % base).toNat ∧
      (us.getLast h.ne_nil).carryOut = x.testBit 0 := by
  have he : (us.head h.ne_nil).entering = testBit (us.head h.ne_nil).found 7 := by
    rw [entering, h.ops.head]
    rfl
  have ha := h.adds_right rfl
  rw [he] at ha
  have ht := Bytes.testBit_head (List.map_eq_nil_iff.not.mpr h.ne_nil : us.map found ≠ [])
  rw [List.head_map, List.length_map] at ht
  have hb : 256 ^ us.length % 2 = 0 := by
    rw [← Nat.succ_pred_eq_of_ne_zero (List.length_eq_zero_iff.not.mpr h.ne_nil), pow_succ]
    omega
  obtain ⟨hs, hc⟩ := ha.eq_half_bmod hb (Bytes.ofBigEndian_map_lt found us)
    (Bytes.ofBigEndian_map_lt left us) ht
  exact ⟨Bytes.map_eq_bigEndian hs, hc⟩

end Chain

-- A program that does nothing else.
def program (op next : Shift) : Core β → List Place → List (ShiftUse β)
  | _, []           => []
  | state, p :: ps =>
    let u : ShiftUse β := { state, op, place := p }
    u :: program next next u.after ps

theorem program_led (op next : Shift) (s : Core β) (p : Place) (ps : List Place) :
    Led (·.op) op next (program op next s (p :: ps)) := by
  induction ps generalizing op s p with
  | nil => rfl
  | cons q ps ih => exact congrArg (op :: ·) (ih next _ q)

theorem program_chain {op next : Shift} {s : Core β} {p : Place} {ps : List Place}
    (hs : ∀ u ∈ program op next s (p :: ps), u.Holds ((program op next s (p :: ps)).map cell))
    (hd : ((program op next s (p :: ps)).map cell).Nodup) :
    Chain op next (program op next s (p :: ps)) where
  ops    := program_led op next s p ps
  linked := by
    generalize (program op next s (p :: ps)).map cell = cells
    clear hs hd
    induction ps generalizing op s p with
    | nil => exact .singleton _
    | cons q ps ih => exact .cons_cons ⟨rfl, fun _ _ => rfl⟩ ih
  holds  := hs
  nodup  := hd

section Inverse

variable {v : ShiftUse β}

theorem rotate_inverse_through {r : Rotation} (hr : r = .rl ∨ r = .rr) (hu : u.op = .rotate r)
    (hv : v.op = .rotate r.inverse) (hf : v.found = u.left) (hc : v.carryIn = u.carryOut)
    (su : u.Holds [u.cell]) (sv : v.Holds [v.cell]) :
    v.left = u.found ∧ v.carryOut = u.carryIn := by
  rw [left_eq sv List.mem_cons_self, carryOut_eq, hf, hc, left_eq su List.mem_cons_self,
    carryOut_eq, hu, hv]
  have h := Rotation.apply_inverse_through hr u.found u.carryIn
  exact ⟨congrArg Prod.fst h, congrArg Prod.snd h⟩

theorem rotate_inverse_past {r : Rotation} (hr : r = .rlc ∨ r = .rrc) (hu : u.op = .rotate r)
    (hv : v.op = .rotate r.inverse) (hf : v.found = u.left)
    (su : u.Holds [u.cell]) (sv : v.Holds [v.cell]) : v.left = u.found := by
  rw [left_eq sv List.mem_cons_self, hf, left_eq su List.mem_cons_self, hu, hv]
  exact Rotation.apply_inverse_past hr ..

theorem swap_swap (hu : u.op = .swap) (hv : v.op = .swap) (hf : v.found = u.left)
    (su : u.Holds [u.cell]) (sv : v.Holds [v.cell]) : v.left = u.found := by
  rw [left_eq sv List.mem_cons_self, hf, left_eq su List.mem_cons_self, hu, hv]
  exact Shift.apply_swap_swap ..

end Inverse

-- Shifts of the numbers of any length that are kept in registers and in memory: to the left from
-- the lowest byte up, and to the right from the highest byte down, without and with a sign. Then come
-- the shifts that take each other back, and the rotations of the accumulator.
theorem long_shifts :
    (∀ us : List (ShiftUse β), ∀ h : Chain .sla (.rotate .rl) us,
      let s := (us.head h.ne_nil).state
      let t := (us.getLast h.ne_nil).after
      let x := Bytes.ofLittleEndian ((us.map cell).map s.peek)
      (us.map cell).map t.peek = Bytes.littleEndian us.length (2 * x % 256 ^ us.length) ∧
        t.cpu.flags.carry = x.testBit (8 * us.length - 1)) ∧
    (∀ us : List (ShiftUse β), ∀ h : Chain .srl (.rotate .rr) us,
      let s := (us.head h.ne_nil).state
      let t := (us.getLast h.ne_nil).after
      let x := Bytes.ofBigEndian ((us.map cell).map s.peek)
      (us.map cell).map t.peek = Bytes.bigEndian us.length (x / 2) ∧
        t.cpu.flags.carry = x.testBit 0) ∧
    (∀ us : List (ShiftUse β), ∀ h : Chain .sra (.rotate .rr) us,
      let s := (us.head h.ne_nil).state
      let t := (us.getLast h.ne_nil).after
      let x := Bytes.ofBigEndian ((us.map cell).map s.peek)
      let base := 256 ^ us.length
      (us.map cell).map t.peek =
          Bytes.bigEndian us.length ((x : Int).bmod base / 2 % base).toNat ∧
        t.cpu.flags.carry = x.testBit 0) ∧
    (∀ u v : ShiftUse β, v.found = u.left → u.Holds [u.cell] → v.Holds [v.cell] →
      (∀ r, r = .rl ∨ r = .rr → u.op = .rotate r → v.op = .rotate r.inverse →
        v.carryIn = u.carryOut → v.left = u.found ∧ v.carryOut = u.carryIn) ∧
      (∀ r, r = .rlc ∨ r = .rrc → u.op = .rotate r → v.op = .rotate r.inverse →
        v.left = u.found) ∧
      (u.op = .swap → v.op = .swap → v.left = u.found)) ∧
    ∀ (s : Core β) (r : Rotation),
      s.execute (.rotateA r) =
        (s.execute (.shift (.rotate r) (.reg .a))).mapCpu fun cpu =>
          { cpu with flags := { cpu.flags with zero := false } } := by
  refine ⟨fun us h => ?sla, fun us h => ?srl, fun us h => ?sra, fun u v hf su sv => ?inverse,
    fun _ _ => rfl⟩
  case sla => simpa only [carryOut, h.map_peek_head, h.map_peek_getLast] using h.double
  case srl => simpa only [carryOut, h.map_peek_head, h.map_peek_getLast] using h.half
  case sra => simpa only [carryOut, h.map_peek_head, h.map_peek_getLast] using h.half_signed
  case inverse =>
    exact ⟨fun r hr hu hv hc => rotate_inverse_through hr hu hv hf hc su sv,
      fun r hr hu hv => rotate_inverse_past hr hu hv hf su sv,
      fun hu hv => swap_swap hu hv hf su sv⟩

theorem holds_flat (u : ShiftUse Flat) (cells : List Cell) : u.Holds cells :=
  fun a c _ _ => Flat.holds _ a c

-- A number in B and in memory, whose low byte is in B, and then one in B and C.
theorem long_shifts_two_bytes :
    let s : Core Flat := {
      cpu := { Cpu.postBoot with b := 0x90, c := 0x03, h := 0xc0 },
      bus := Flat.set {} 0xc000 0x81 }
    let us := program .sla (.rotate .rl) s [.reg .b, .memHl]
    let vs := program .srl (.rotate .rr) s [.reg .b, .reg .c]
    let ws := program .sra (.rotate .rr) s [.reg .b, .reg .c]
    let u : ShiftUse Flat := { state := s, op := .rotate .rl, place := .reg .b }
    let v : ShiftUse Flat := { state := u.after, op := .rotate .rr, place := .reg .b }
    (∃ h : Chain .sla (.rotate .rl) us,
      [Cell.reg .b, .mem 0xc000].map (us.getLast h.ne_nil).after.peek = [0x20, 0x03]) ∧
    (∃ h : Chain .srl (.rotate .rr) vs,
      [Cell.reg .b, .reg .c].map (vs.getLast h.ne_nil).after.peek = [0x48, 0x01]) ∧
    (∃ h : Chain .sra (.rotate .rr) ws,
      [Cell.reg .b, .reg .c].map (ws.getLast h.ne_nil).after.peek = [0xc8, 0x01]) ∧
    v.left = 0x90 := by
  intro s us vs ws u v
  have hu : Chain .sla (.rotate .rl) us :=
    program_chain (fun u _ => holds_flat u _) (by decide +kernel)
  have hv : Chain .srl (.rotate .rr) vs :=
    program_chain (fun v _ => holds_flat v _) (by decide +kernel)
  have hw : Chain .sra (.rotate .rr) ws :=
    program_chain (fun w _ => holds_flat w _) (by decide +kernel)
  have sla := (long_shifts.1 us hu).1
  have srl := (long_shifts.2.1 vs hv).1
  have sra := (long_shifts.2.2.1 ws hw).1
  obtain ⟨through, -⟩ := long_shifts.2.2.2.1 u v rfl (holds_flat u _) (holds_flat v _)
  refine ⟨⟨hu, ?_⟩, ⟨hv, srl.trans ?_⟩, ⟨hw, sra.trans ?_⟩, (through .rl (.inl rfl) rfl rfl rfl).1⟩
  · have hc : us.map cell = [.reg .b, .mem 0xc000] := by decide +kernel
    have hm : s.peek (.mem 0xc000) = 0x81 := by
      rw [Core.peek_flat, Flat.get_set, if_pos rfl]
    have hp : [Cell.reg .b, .mem 0xc000].map s.peek = [0x90, 0x81] := by
      rw [List.map_cons, List.map_singleton, hm]
      rfl
    rw [hc] at sla
    refine sla.trans ?_
    change Bytes.littleEndian 2 (2 * Bytes.ofLittleEndian ([Cell.reg .b, .mem 0xc000].map s.peek) %
      256 ^ 2) = _
    rw [hp]
    decide
  · change Bytes.bigEndian 2 (Bytes.ofBigEndian ([Cell.reg .b, .reg .c].map s.peek) / 2) = _
    decide +kernel
  · change Bytes.bigEndian 2
      ((Bytes.ofBigEndian ([Cell.reg .b, .reg .c].map s.peek) : Int).bmod (256 ^ 2) / 2 %
        (256 ^ 2 : Nat)).toNat = _
    decide +kernel

end ShiftUse
end DotMatrix
