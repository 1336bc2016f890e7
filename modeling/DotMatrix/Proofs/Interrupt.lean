import DotMatrix.Interrupt

namespace DotMatrix

inductive InterruptEvent
  -- A device asks for an interrupt.
  | request (i : Interrupt)
  -- The program writes the request register.
  | write (v : UInt8)
  -- The processor serves a line.
  | serve (line : Fin 5)
  deriving Repr, DecidableEq

namespace InterruptEvent

variable {line : Fin 5} {es : List InterruptEvent} {e : InterruptEvent}

-- A write concerns every line.
def concerns (line : Fin 5) : InterruptEvent → Bool
  | request i => i.line = line
  | write _   => true
  | serve i   => i = line

-- Whether the event leaves the latch of a line that it concerns set.
def sets (line : Fin 5) : InterruptEvent → Bool
  | request _ => true
  | write v   => testBit v line
  | serve _   => false

def last? (line : Fin 5) (es : List InterruptEvent) : Option InterruptEvent :=
  (es.filter (concerns line)).getLast?

theorem last?_concat (line : Fin 5) (es : List InterruptEvent) (e : InterruptEvent) :
    last? line (es ++ [e]) = if concerns line e then some e else last? line es := by
  simp only [last?, List.filter_append]
  split
  case isTrue h  => simp [h]
  case isFalse h => simp [h]

theorem concerns_of_last? (h : last? line es = some e) : concerns line e :=
  (List.mem_filter.mp (List.mem_of_getLast? h)).right

end InterruptEvent

namespace Interrupts

open InterruptEvent

variable {s : Interrupts} {es : List InterruptEvent} {line : Fin 5}

theorem testBit_and (a b : UInt8) (i : Nat) : testBit (a &&& b) i = (testBit a i && testBit b i) :=
  (congrArg (Nat.testBit · i) (UInt8.toNat_and a b)).trans (Nat.testBit_and ..)

theorem testBit_or (a b : UInt8) (i : Nat) : testBit (a ||| b) i = (testBit a i || testBit b i) :=
  (congrArg (Nat.testBit · i) (UInt8.toNat_or a b)).trans (Nat.testBit_or ..)

theorem testBit_bitIf (line i : Fin 5) :
    testBit (bitIf true (.ofNat line)) i = decide (line = i) := by
  revert line i
  decide

theorem testBit_not_bitIf (line i : Fin 5) :
    testBit (~~~bitIf true (.ofNat line)) i = !decide (line = i) := by
  revert line i
  decide

theorem testBit_lines (i : Fin 5) : testBit lines i = true := by
  revert i
  decide

-- The line that is served first among those with a set bit.
structure Lowest (b : UInt8) (line : Fin 5) : Prop where
  set   : testBit b line
  below : ∀ i < line, testBit b i = false

theorem lowest_of_lowestLine? {b : UInt8} (h : lowestLine? b = some line) : Lowest b line := by
  have ⟨hs, n, hn, he, hb⟩ := List.find?_eq_some_iff_getElem.mp h
  have he : line.val = n := by rw [← he, List.getElem_finRange, Fin.val_cast]
  refine ⟨hs, fun i hi => ?_⟩
  simpa using hb i.val (he ▸ hi)

theorem active_eq_zero (h : ∀ line : Fin 5, testBit s.active line = false) : s.active = 0 := by
  have hl : s.active.toNat < 32 := by
    rw [active, UInt8.toNat_and]
    exact Nat.lt_of_le_of_lt Nat.and_le_right (by decide)
  refine UInt8.toNat_inj.mp (Nat.eq_of_testBit_eq fun i => ?_)
  rw [UInt8.toNat_zero, Nat.zero_testBit]
  cases Nat.lt_or_ge i 5
  case inl hi => exact h ⟨i, hi⟩
  case inr hi =>
    have hp : 32 ≤ 1 <<< i := Nat.one_shiftLeft i ▸ Nat.pow_le_pow_right (n := 2) (by decide) hi
    exact Nat.testBit_lt_two_pow (Nat.one_shiftLeft i ▸ Nat.lt_of_lt_of_le hl hp)

theorem acknowledge_of_active (h : s.active ≠ 0) : ∃ line, Lowest s.active line ∧
    s.acknowledge =
      (some line, { s with requested := s.requested &&& ~~~bitIf true (.ofNat line) }) := by
  cases hl : lowestLine? s.active
  case none =>
    refine absurd (active_eq_zero fun line => ?_) h
    simpa using List.find?_eq_none.mp hl line (List.mem_finRange line)
  case some line => exact ⟨line, lowest_of_lowestLine? hl, by rw [acknowledge, hl]⟩

-- What the latches tell of the events that were.
structure Latched (es : List InterruptEvent) (s : Interrupts) : Prop where
  line    : ∀ line : Fin 5, testBit s.requested line = (last? line es).any (sets line)
  -- The bits that no line has.
  unwired : ∀ i : Fin 8, 5 ≤ i.val → testBit s.requested i = false

namespace Latched

theorem initial : Latched [] {} where
  line    := by decide
  unwired := by decide

theorem congr {t : Interrupts} (h : Latched es s) (ht : t.requested = s.requested) :
    Latched es t where
  line    := ht ▸ h.line
  unwired := ht ▸ h.unwired

theorem request (h : Latched es s) (i : Interrupt) :
    Latched (es ++ [.request i]) (s.request i) where
  line line := by
    simp only [Interrupts.request, testBit_or, testBit_bitIf, last?_concat, concerns,
      decide_eq_true_eq, h.line line]
    split
    case isTrue hl  => simp [hl, sets]
    case isFalse hl => simp [hl]
  unwired j hj := by
    have hb : ∀ line : Fin 5, ∀ j : Fin 8, 5 ≤ j.val →
        testBit (bitIf true (.ofNat line)) j = false := by decide
    simp only [Interrupts.request, testBit_or, h.unwired j hj, hb i.line j hj, Bool.or_self]

-- What was requested before is gone.
theorem setFlags (_ : Latched es s) (v : UInt8) : Latched (es ++ [.write v]) (s.setFlags v) where
  line line := by
    simp only [Interrupts.setFlags, testBit_and, testBit_lines, last?_concat, concerns, if_true,
      Option.any_some, sets, Bool.and_true]
  unwired j hj := by
    have hb : ∀ j : Fin 8, 5 ≤ j.val → testBit lines j = false := by decide
    simp only [Interrupts.setFlags, testBit_and, hb j hj, Bool.and_false]

theorem requestIf (h : Latched es s) (n : Nat) (i : Interrupt) :
    Latched (es ++ .replicate n (.request i)) (s.requestIf (0 < n) i) := by
  induction n with
  | zero => exact (List.append_nil es).symm ▸ h
  | succ n ih =>
    rw [List.replicate_succ', ← List.append_assoc]
    refine (ih.request i).congr ?_
    cases n with
    | zero   => rfl
    | succ n => simp [Interrupts.requestIf, Interrupts.request, UInt8.or_assoc]

theorem acknowledge (h : Latched es s) :
    Latched (es ++ s.acknowledge.fst.toList.map .serve) s.acknowledge.snd := by
  simp only [Interrupts.acknowledge]
  split
  case h_1 => simpa using h
  case h_2 line hl =>
    constructor
    case line =>
      intro i
      simp only [Option.toList_some, List.map_cons, List.map_nil, last?_concat, concerns,
        testBit_and, testBit_not_bitIf, h.line i]
      by_cases hi : line = i
      case pos => simp [hi, sets]
      case neg => simp [hi]
    case unwired =>
      intro i hi
      simp only [testBit_and, h.unwired i hi, Bool.false_and]

end Latched
end Interrupts
end DotMatrix
