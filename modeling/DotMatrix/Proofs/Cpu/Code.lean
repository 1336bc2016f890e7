import DotMatrix.Proofs.Cpu.Cells
import DotMatrix.Proofs.Cpu.Fetch
import DotMatrix.Proofs.Cpu.Illegal
import DotMatrix.Proofs.Interrupt

namespace DotMatrix

namespace Instruction

-- The instruction with the opcode that is spelled out.
def ofOpcode? : List UInt8 → Option Instruction
  | [opcode]         => decode opcode
  | [first, opcode] => if first = secondTable then some (decodeSecond opcode) else none
  | _                => none

end Instruction

theorem add_ofNat_succ (a : UInt16) (k : Nat) : a + .ofNat (k + 1) = a + 1 + .ofNat k := by
  rw [UInt16.ofNat_add]
  grind

theorem add_ofNat_ne_self (a : UInt16) {k : Nat} (h0 : 0 < k) (hk : k < 0x10000) :
    a + .ofNat k ≠ a := by
  intro ha
  have hn := congrArg UInt16.toNat ha
  have hl := a.toNat_lt
  rw [UInt16.toNat_add, UInt16.toNat_ofNat'] at hn
  omega

namespace Flat

-- The bytes lie one after the other from an address on.
def Contains (m : Flat) : UInt16 → List UInt8 → Prop
  | _, []      => True
  | a, b :: bs => m.get a = b ∧ m.Contains (a + 1) bs

-- Puts the bytes there.
def load (m : Flat) : UInt16 → List UInt8 → Flat
  | _, []      => m
  | a, b :: bs => (m.load (a + 1) bs).set a b

variable {m : Flat} {a c : UInt16} {bs : List UInt8}

theorem Contains.set (h : m.Contains c bs) (v : UInt8)
    (ha : ∀ k < bs.length, c + .ofNat k ≠ a) : (m.set a v).Contains c bs := by
  induction bs generalizing c with
  | nil => trivial
  | cons b bs ih =>
    have hc : c ≠ a := by simpa using ha 0 (Nat.zero_lt_succ _)
    refine ⟨?_, ih h.2 fun k hk => ?_⟩
    · rw [get_set, if_neg hc]
      exact h.1
    · rw [← add_ofNat_succ]
      exact ha (k + 1) (Nat.succ_lt_succ hk)

-- As long as they do not come round to their own start.
theorem contains_load (m : Flat) (a : UInt16) (h : bs.length ≤ 0x10000) :
    (m.load a bs).Contains a bs := by
  induction bs generalizing a with
  | nil => trivial
  | cons b bs ih =>
    rw [List.length_cons] at h
    refine ⟨by rw [load, get_set, if_pos rfl], ?_⟩
    refine (ih (a + 1) (by omega)).set b fun k hk => ?_
    rw [← add_ofNat_succ]
    exact add_ofNat_ne_self a (by omega) (by omega)

theorem acknowledge_of_pending (h : Bus.pending m) : (Bus.acknowledge m).fst ≠ none := by
  obtain ⟨line, _, hk⟩ := Interrupts.acknowledge_of_active (bne_iff_ne.mp h)
  have hl : (Bus.acknowledge m).fst = some line := congrArg Prod.fst hk
  exact hl ▸ Option.some_ne_none line

end Flat

namespace Core

variable {s : Core Flat} {i : Instruction} {code : List UInt8}

theorem fetched?_of_contains (h : Instruction.ofOpcode? code = some i)
    (hc : s.bus.Contains s.cpu.pc code) : s.fetched? = some i := by
  match code with
  | [opcode] =>
    obtain rfl : s.bus.get s.cpu.pc = opcode := hc.1
    have hn : s.bus.get s.cpu.pc ≠ Instruction.secondTable := fun hs =>
      Option.some_ne_none i (h.symm.trans ((Instruction.decode_eq_none_iff _).mpr (.inl hs)))
    exact (if_neg hn).trans h
  | [first, opcode] =>
    obtain ⟨rfl, rfl, -⟩ := hc
    rw [Instruction.ofOpcode?] at h
    split at h
    case isTrue hs => exact (if_pos hs).trans h
    case isFalse => contradiction

-- What is executed is not served: the processor is closed to an interrupt that is pending.
theorem closed_of_next? (h : s.next? = some i) : Bus.pending s.bus → s.cpu.ime = false := by
  intro hp
  refine Bool.eq_false_iff.mpr fun hi => ?_
  obtain ⟨line, hl⟩ := Option.ne_none_iff_exists'.mp (Flat.acknowledge_of_pending hp)
  have hd := (s.executeNext_of_next? h).1
  rw [dispatch_of_serve hp hi (Prod.ext hl rfl)] at hd
  contradiction

-- A processor that executes an instruction is awake by then.
theorem dispatch_of_next? (h : s.next? = some i) : s.dispatch = (false, s.awake) := by
  have hd := dispatch_of_closed (closed_of_next? h)
  by_cases hp : Bus.pending s.bus
  case pos => rw [hd, if_pos hp]
  case neg =>
    rw [if_neg hp] at hd
    have hh : s.cpu.halted = false := by
      refine Bool.eq_false_iff.mpr fun hh => ?_
      simp only [next?, hd, hh, if_true] at h
      contradiction
    rw [hd, awake_eq hh]

theorem fetches_eq (s : Core Flat) (n : Nat) :
    s.fetches n = { s with cpu := { s.cpu with pc := s.cpu.pc + .ofNat n } } := by
  induction n generalizing s with
  | zero => simp [fetches]
  | succ n ih =>
    rw [fetches, ih, add_ofNat_succ]
    rfl

theorem step_eq_of_next? (h : s.next? = some i) :
    s.step = (.ok (i.cost s.cpu.flags), execute {
      cpu := { s.cpu with pc := s.cpu.pc + .ofNat i.opcodeBytes, halted := false }
      bus := s.bus } i) := by
  obtain ⟨-, hf, hs⟩ := s.executeNext_of_next? h
  rw [dispatch_of_next? h] at hf hs
  rw [hs, executeNext_of_fetched? _ hf, fetches_eq]
  rfl

-- A processor that neither waits nor serves executes what it finds.
theorem next?_of_contains (hh : s.cpu.halted = false) (hp : Bus.pending s.bus → s.cpu.ime = false)
    (h : Instruction.ofOpcode? code = some i) (hc : s.bus.Contains s.cpu.pc code) :
    s.next? = some i := by
  have hd : s.dispatch = (false, s) := by rw [dispatch_of_closed hp, awake_eq hh, ite_self]
  simp only [next?, hd, hh, Bool.false_eq_true, if_false]
  exact fetched?_of_contains h hc

theorem step_of_contains (hh : s.cpu.halted = false) (hp : Bus.pending s.bus → s.cpu.ime = false)
    (h : Instruction.ofOpcode? code = some i) (hc : s.bus.Contains s.cpu.pc code) :
    s.step = (.ok (i.cost s.cpu.flags), (s.fetches i.opcodeBytes).execute i) := by
  rw [step_eq_of_next? (next?_of_contains hh hp h hc), fetches_eq, ← hh]

end Core
end DotMatrix
