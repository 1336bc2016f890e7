import DotMatrix.Proofs.Cpu.Code
import DotMatrix.Proofs.Cpu.FlagRegister
import DotMatrix.Proofs.Cpu.WordArithmetic

namespace DotMatrix

theorem add_ofNat_add_two (a : UInt16) (k : Nat) : a + .ofNat (k + 2) = a + 2 + .ofNat k := by
  rw [UInt16.ofNat_add]
  grind

theorem sub_ofNat_add_two (a : UInt16) (k : Nat) : a - .ofNat (k + 2) = a - .ofNat k - 2 := by
  rw [UInt16.ofNat_add]
  grind

theorem Cpu.setPair_getPair (cpu : Cpu) (rr : Pair) : cpu.setPair rr (cpu.getPair rr) = cpu := by
  cases rr <;>
    simp only [setPair, getPair, lowByte_word, highByte_word, Flags.ofByte_toByte]

namespace Flat

-- The word whose bytes lie at an address and behind it.
def wordAt (m : Flat) (a : UInt16) : UInt16 := word (m.get a) (m.get (a + 1))

def setWord (m : Flat) (a v : UInt16) : Flat := (m.set a (lowByte v)).set (a + 1) (highByte v)

-- So many words from an address on.
def words (m : Flat) (a : UInt16) : Nat → List UInt16
  | 0     => []
  | n + 1 => m.wordAt a :: m.words (a + 2) n

variable {m m' : Flat} {a c : UInt16} {n : Nat}

theorem get_setWord (m : Flat) (a v c : UInt16) :
    (m.setWord a v).get c =
      if c = a + 1 then highByte v else if c = a then lowByte v else m.get c := by
  rw [setWord, get_set, get_set]

theorem wordAt_setWord (m : Flat) (a v : UInt16) : (m.setWord a v).wordAt a = v := by
  have ha : a ≠ a + 1 := by simp
  rw [wordAt, get_setWord, get_setWord, if_neg ha, if_pos rfl, if_pos rfl, word_bytes]

theorem words_congr (h : ∀ k < 2 * n, m.get (a + .ofNat k) = m'.get (a + .ofNat k)) :
    m.words a n = m'.words a n := by
  induction n generalizing a with
  | zero => rfl
  | succ n ih =>
    have h0 : m.get a = m'.get a := by simpa using h 0 (by omega)
    have h1 : m.get (a + 1) = m'.get (a + 1) := h 1 (by omega)
    have ht : ∀ k < 2 * n, m.get (a + 2 + .ofNat k) = m'.get (a + 2 + .ofNat k) := by
      intro k hk
      rw [← add_ofNat_add_two]
      exact h (k + 2) (by omega)
    rw [words, words, ih ht, wordAt, wordAt, h0, h1]

-- A word that is put in front of others is found there, if it does not reach round to their end.
theorem words_setWord (m : Flat) (a v : UInt16) (h : n < 0x8000) :
    (m.setWord a v).words a (n + 1) = v :: m.words (a + 2) n := by
  rw [words, wordAt_setWord, List.cons.injEq]
  refine ⟨rfl, words_congr fun k hk => ?_⟩
  have h0 : a + .ofNat (k + 2) ≠ a := add_ofNat_ne_self a (by omega) (by omega)
  have h1 : a + .ofNat (k + 2) ≠ a + 1 := by
    rw [add_ofNat_succ]
    exact add_ofNat_ne_self (a + 1) (by omega) (by omega)
  rw [← add_ofNat_add_two, get_setWord, if_neg h1, if_neg h0]

end Flat

namespace Core

variable {β : Type} [Bus β]

def pushAll (s : Core β) (vs : List UInt16) : Core β := vs.foldl push s

def popAll (s : Core β) : Nat → List UInt16 × Core β
  | 0     => ([], s)
  | n + 1 =>
    let (v, s) := s.pop
    let (vs, s) := s.popAll n
    (v :: vs, s)

theorem pushAll_concat (s : Core β) (vs : List UInt16) (v : UInt16) :
    s.pushAll (vs ++ [v]) = (s.pushAll vs).push v :=
  List.foldl_concat ..

variable (s : Core Flat)

theorem push_eq (v : UInt16) :
    s.push v = {
      cpu := { s.cpu with sp := s.cpu.sp - 2 }
      bus := s.bus.setWord (s.cpu.sp - 2) v } :=
  rfl

theorem pop_eq :
    s.pop = (s.bus.wordAt s.cpu.sp, { s with cpu := { s.cpu with sp := s.cpu.sp + 2 } }) :=
  rfl

theorem popAll_eq (n : Nat) :
    s.popAll n = (s.bus.words s.cpu.sp n,
      { s with cpu := { s.cpu with sp := s.cpu.sp + .ofNat (2 * n) } }) := by
  induction n generalizing s with
  | zero => simp [popAll, Flat.words]
  | succ n ih =>
    rw [Nat.mul_succ, add_ofNat_add_two]
    simp only [popAll, pop_eq, ih]
    rfl

theorem cpu_pushAll (vs : List UInt16) :
    (s.pushAll vs).cpu = { s.cpu with sp := s.cpu.sp - .ofNat (2 * vs.length) } := by
  induction vs using List.reverseRecOn with
  | nil => simp [pushAll]
  | append_singleton vs v ih =>
    rw [pushAll_concat, push_eq, ih, List.length_append, List.length_singleton, Nat.mul_succ,
      sub_ofNat_add_two]

theorem words_pushAll (vs : List UInt16) (h : vs.length ≤ 0x8000) :
    (s.pushAll vs).bus.words (s.pushAll vs).cpu.sp vs.length = vs.reverse := by
  induction vs using List.reverseRecOn with
  | nil => rfl
  | append_singleton vs v ih =>
    rw [List.length_append, List.length_singleton] at h ⊢
    rw [pushAll_concat, push_eq, Flat.words_setWord _ _ _ (by omega), UInt16.sub_add_cancel,
      ih (by omega), List.reverse_append]
    rfl

-- What was pushed is popped again, last first, and no other register has changed.
theorem popAll_pushAll (vs : List UInt16) (h : vs.length ≤ 0x8000) :
    (s.pushAll vs).popAll vs.length =
      (vs.reverse, { cpu := s.cpu, bus := (s.pushAll vs).bus }) := by
  rw [popAll_eq, s.words_pushAll vs h, cpu_pushAll, UInt16.sub_add_cancel]

-- Nothing is written but the bytes below the stack pointer, two for each word.
theorem get_pushAll (vs : List UInt16) {a : UInt16}
    (h : ∀ k, 0 < k → k ≤ 2 * vs.length → a ≠ s.cpu.sp - .ofNat k) :
    (s.pushAll vs).bus.get a = s.bus.get a := by
  induction vs using List.reverseRecOn with
  | nil => rfl
  | append_singleton vs v ih =>
    rw [List.length_append, List.length_singleton, Nat.mul_succ] at h
    have h1 := h (2 * vs.length + 1) (by omega) (by omega)
    have h2 := h (2 * vs.length + 2) (by omega) (by omega)
    rw [sub_ofNat_add_two] at h2
    have hn : s.cpu.sp - .ofNat (2 * vs.length) - 2 + 1 = s.cpu.sp - .ofNat (2 * vs.length + 1) := by
      rw [UInt16.ofNat_add]
      grind
    rw [pushAll_concat, push_eq, cpu_pushAll, Flat.get_setWord, hn, if_neg h1, if_neg h2,
      ih fun k h0 hk => h k h0 (by omega)]

theorem pop_push (v : UInt16) : (s.push v).pop = (v, { cpu := s.cpu, bus := (s.push v).bus }) := by
  rw [pop_eq, push_eq, Flat.wordAt_setWord, UInt16.sub_add_cancel]

-- The registers of a pair get back what they have put on the stack.
theorem execute_push_pop (rr : Pair) :
    (s.execute (.push rr)).execute (.pop rr) =
      { cpu := s.cpu, bus := (s.push (s.cpu.getPair rr)).bus } := by
  simp only [execute, pop_push, mapCpu, Cpu.setPair_getPair]

end Core

namespace RegisterFile

variable (r : RegisterFile)

theorem set_get (i : Nat) : r.set i (r.get i) = r := by
  have hb : r.bytes.setIfInBounds i (r.bytes.getD i 0) = r.bytes := by
    ext j hj
    rw [Vector.getElem_setIfInBounds hj]
    split
    case isTrue h  => subst h; simp [Vector.getD, hj]
    case isFalse   => rfl
  rw [set, get, hb]

theorem get_set_self {i : Nat} (h : i < 8) (v : UInt8) : (r.set i v).get i = v := by
  simp [get, set, Vector.getD, h]

theorem set_eq_self_iff {i : Nat} (h : i < 8) (v : UInt8) : r.set i v = r ↔ v = r.get i := by
  constructor
  case mp =>
    intro he
    rw [← r.get_set_self h v, he]
  case mpr =>
    rintro rfl
    exact r.set_get i

theorem and_high_eq_self_iff (b : UInt8) : b &&& 0xf0 = b ↔ b &&& 0x0f = 0 := by
  revert b
  decide +kernel

-- A pair gets back its own bytes, but for what the flags have in the low nibble.
theorem setPair_getPair_eq_iff (rr : Pair) :
    r.setPair rr (r.getPair rr) = r ↔ (rr = .af → r.flagByte &&& 0x0f = 0) := by
  have hf : r.setFlagByte (r.flagByte &&& 0xf0) = r ↔ r.flagByte &&& 0x0f = 0 :=
    (r.set_eq_self_iff (by decide) _).trans (and_high_eq_self_iff _)
  cases rr <;>
    simp [setPair, getPair, Pair.index?, lowByte_word, highByte_word, set_get, hf]

end RegisterFile

namespace ByteCore

variable (s : ByteCore Flat)

theorem pop_push (v : UInt16) :
    (s.push v).pop = (v, { s with bus := s.bus.setWord (s.regs.sp - 2) v }) := by
  have hs : s.push v = { s with
      regs := { s.regs with sp := s.regs.sp - 2 }
      bus  := s.bus.setWord (s.regs.sp - 2) v } := rfl
  have hp (t : ByteCore Flat) : t.pop = (t.bus.wordAt t.regs.sp,
      { t with regs := { t.regs with sp := t.regs.sp + 2 } }) := rfl
  rw [hp, hs, Flat.wordAt_setWord, UInt16.sub_add_cancel]

theorem regs_execute_push_pop (rr : Pair) :
    ((s.execute (.push rr)).execute (.pop rr)).regs = s.regs ↔
      (rr = .af → s.regs.flagByte &&& 0x0f = 0) := by
  rw [← s.regs.setPair_getPair_eq_iff rr]
  simp only [execute, pop_push]
  rfl

end ByteCore
end DotMatrix
