import DotMatrix.Proofs.Cpu.Stack

namespace DotMatrix.Core

variable {s t u : Core Flat} {next : UInt16} {ime : Bool}

-- The next step calls a routine, and the program is to go on at an address afterwards.
inductive Calls (s : Core Flat) : UInt16 → Prop
  | call {cond : Option Condition} :
    s.next? = some (.call cond) → Condition.taken s.cpu.flags cond → s.Calls (s.cpu.pc + 3)
  | rst {vector : Fin 8} : s.next? = some (.rst vector) → s.Calls (s.cpu.pc + 1)
  -- The instruction that an interrupt comes before is still to be executed.
  | serve : Bus.pending s.bus → s.cpu.ime → s.Calls s.cpu.pc

-- The next step returns, and interrupts are allowed or not afterwards.
inductive Returns (s : Core Flat) : Bool → Prop
  | ret {cond : Option Condition} :
    s.next? = some (.ret cond) → Condition.taken s.cpu.flags cond → s.Returns s.cpu.ime
  | reti : s.next? = some .reti → s.Returns true

-- A stretch of a run that starts and ends on one level of the stack. On the way it may go below that
-- level, as deep as it wants.
inductive Level : Core Flat → Core Flat → Prop
  | refl (s : Core Flat) : Level s s
  | step {s t : Core Flat} : s.step.2.cpu.sp = s.cpu.sp → Level s.step.2 t → Level s t
  -- Something is put on the stack, and is taken off again.
  | frame {s t u : Core Flat} :
    Level s.step.2 u → u.step.2.cpu.sp = s.cpu.sp → Level u.step.2 t → Level s t
  -- A routine is called, and returns.
  | call {s t u : Core Flat} {next : UInt16} {ime : Bool} :
    s.Calls next → Level s.step.2 u → u.Returns ime → Level u.step.2 t → Level s t

theorem step_of_call {cond : Option Condition} (h : s.next? = some (.call cond))
    (ht : Condition.taken s.cpu.flags cond) :
    s.step.2 = {
      cpu := { s.cpu with
        pc := s.bus.wordAt (s.cpu.pc + 1), sp := s.cpu.sp - 2, halted := false }
      bus := s.bus.setWord (s.cpu.sp - 2) (s.cpu.pc + 3) } := by
  have hf : s.awake.fetch.2.fetchWord = (s.bus.wordAt (s.cpu.pc + 1), {
      cpu := { s.cpu with pc := s.cpu.pc + 1 + 2, halted := false }
      bus := s.bus }) := rfl
  have hp : s.cpu.pc + 3 = s.cpu.pc + 1 + 2 := (UInt16.add_assoc s.cpu.pc 1 2).symm
  have hs : s.step.2 = s.awake.fetch.2.execute (.call cond) := by rw [step_eq_of_next? h]; rfl
  rw [hs, execute, hf, hp]
  exact if_pos ht

theorem step_of_rst {vector : Fin 8} (h : s.next? = some (.rst vector)) :
    s.step.2 = {
      cpu := { s.cpu with pc := 8 * .ofNat vector, sp := s.cpu.sp - 2, halted := false }
      bus := s.bus.setWord (s.cpu.sp - 2) (s.cpu.pc + 1) } := by
  rw [step_eq_of_next? h]
  rfl

-- A call leaves the way back on the stack.
structure Called (s t : Core Flat) (next : UInt16) : Prop where
  sp   : t.cpu.sp = s.cpu.sp - 2
  word : t.bus.wordAt (s.cpu.sp - 2) = next

theorem Calls.called (h : s.Calls next) : s.Called s.step.2 next := by
  cases h
  case call h ht =>
    rw [step_of_call h ht]
    exact ⟨rfl, Flat.wordAt_setWord ..⟩
  case rst h =>
    rw [step_of_rst h]
    exact ⟨rfl, Flat.wordAt_setWord ..⟩
  case serve hp hi =>
    obtain ⟨line, hl⟩ := Option.ne_none_iff_exists'.mp (Flat.acknowledge_of_pending hp)
    rw [step_of_serve hp hi (Prod.ext hl rfl)]
    exact ⟨rfl, Flat.wordAt_setWord ..⟩

theorem Returns.step_eq (h : s.Returns ime) :
    ∃ ticks, s.step = (.ok ticks, {
      cpu := { s.cpu with
        pc := s.bus.wordAt s.cpu.sp, sp := s.cpu.sp + 2, ime, halted := false }
      bus := s.bus }) := by
  cases h
  case ret cond h ht =>
    rw [step_eq_of_next? h]
    exact ⟨_, congrArg _ (if_pos ht)⟩
  case reti h =>
    rw [step_eq_of_next? h]
    exact ⟨_, rfl⟩

theorem Level.sp_eq (h : Level s t) : t.cpu.sp = s.cpu.sp := by
  induction h with
  | refl              => rfl
  | step hs _ ih      => exact ih.trans hs
  | frame _ hs _ _ ih => exact ih.trans hs
  | call hc _ hr _ hu ih =>
    obtain ⟨ticks, he⟩ := hr.step_eq
    rw [ih, he, hu, hc.called.sp, UInt16.sub_add_cancel]

-- Whatever a routine calls in turn, it returns to where its caller goes on, if the way back is still
-- where the call has put it.
theorem Returns.step_of_calls (hc : s.Calls next) (hl : Level s.step.2 u) (hr : u.Returns ime)
    (hw : u.bus.wordAt (s.cpu.sp - 2) = s.step.2.bus.wordAt (s.cpu.sp - 2)) :
    ∃ ticks, u.step = (.ok ticks, {
      cpu := { u.cpu with pc := next, sp := s.cpu.sp, ime, halted := false }
      bus := u.bus }) := by
  obtain ⟨ticks, he⟩ := hr.step_eq
  have hs : u.cpu.sp = s.cpu.sp - 2 := hl.sp_eq.trans hc.called.sp
  rw [hs, hw, hc.called.word, UInt16.sub_add_cancel] at he
  exact ⟨ticks, he⟩

-- The stack gives back what was put on it, last first, and lies below where it starts. So calls of
-- any depth come back to what is next, and pairs of registers keep their value, but for bits that the
-- flags do not have.
theorem stack_discipline :
    (∀ (s : Core Flat) (vs : List UInt16), vs.length ≤ 0x8000 →
      (s.pushAll vs).popAll vs.length =
        (vs.reverse, { cpu := s.cpu, bus := (s.pushAll vs).bus }) ∧
      ∀ a, (∀ k, 0 < k → k ≤ 2 * vs.length → a ≠ s.cpu.sp - .ofNat k) →
        (s.pushAll vs).bus.get a = s.bus.get a) ∧
    (∀ {s u : Core Flat} {next : UInt16} {ime : Bool},
      s.Calls next → Level s.step.2 u → u.Returns ime →
      u.bus.wordAt (s.cpu.sp - 2) = s.step.2.bus.wordAt (s.cpu.sp - 2) →
      ∃ ticks, u.step = (.ok ticks, {
        cpu := { u.cpu with pc := next, sp := s.cpu.sp, ime, halted := false }
        bus := u.bus })) ∧
    (∀ (s : Core Flat) (rr : Pair), ((s.execute (.push rr)).execute (.pop rr)).cpu = s.cpu) ∧
    ∀ (s : ByteCore Flat) (rr : Pair),
      ((s.execute (.push rr)).execute (.pop rr)).regs = s.regs ↔
        (rr = .af → s.regs.flagByte &&& 0x0f = 0) := by
  refine ⟨fun s vs h => ⟨s.popAll_pushAll vs h, fun a => s.get_pushAll vs⟩, Returns.step_of_calls,
    fun s rr => ?_, ByteCore.regs_execute_push_pop⟩
  rw [execute_push_pop]

-- A routine is called that does nothing but return. The way back lies around the end of memory.
theorem stack_discipline_call :
    let bus := Flat.load {} 0 [0xcd, 0x04, 0x00, 0x00, 0xd9]
    let s : Core Flat := { cpu := { Cpu.postBoot with pc := 0, sp := 1 }, bus }
    let t := s.step.2
    (s.Calls (s.cpu.pc + 3) ∧ Level t t ∧ t.Returns true) ∧
    (∃ ticks, t.step = (.ok ticks, {
      cpu := { t.cpu with pc := s.cpu.pc + 3, sp := s.cpu.sp, ime := true, halted := false }
      bus := t.bus })) ∧
    ((s.pushAll [2, 3]).popAll 2).1 = [3, 2] ∧ (s.pushAll [2, 3]).bus.get 1 = bus.get 1 := by
  intro bus s t
  have hb : bus.Contains 0 [0xcd, 0x04, 0x00, 0x00, 0xd9] := Flat.contains_load _ _ (by simp)
  clear_value bus
  obtain ⟨h0, h1, h2, -, h4, -⟩ := hb
  have hcall : Instruction.ofOpcode? [0xcd] = some (.call none) := by decide
  have hreti : Instruction.ofOpcode? [0xd9] = some .reti := by decide
  have hs : s.next? = some (.call none) := next?_of_contains rfl (fun _ => rfl) hcall ⟨h0, trivial⟩
  have ht : t = _ := step_of_call hs rfl
  have hp : t.cpu.pc = 0 + 1 + 1 + 1 + 1 := by
    have hw : bus.wordAt (0 + 1) = 4 := by
      rw [Flat.wordAt, h1, h2]
      decide
    rw [ht]
    exact hw
  have hg : t.bus.get t.cpu.pc = 0xd9 := by
    have n0 : (0 + 1 + 1 + 1 + 1 : UInt16) ≠ 1 - 2 := by decide
    have n1 : (0 + 1 + 1 + 1 + 1 : UInt16) ≠ 1 - 2 + 1 := by decide
    rw [hp, ht, Flat.get_setWord]
    exact (if_neg n1).trans ((if_neg n0).trans h4)
  have hr : t.next? = some .reti :=
    next?_of_contains (congrArg (·.cpu.halted) ht) (fun _ => congrArg (·.cpu.ime) ht) hreti
      ⟨hg, trivial⟩
  have hc : s.Calls (s.cpu.pc + 3) := .call hs rfl
  have hd := stack_discipline.2.1 hc (.refl t) (.reti hr) rfl
  have hk : ∀ k, 0 < k → k ≤ 4 → (1 : UInt16) ≠ 1 - .ofNat k := by
    intro k _ _
    interval_cases k <;> decide
  obtain ⟨hv, hm⟩ := stack_discipline.1 s [2, 3] (by decide)
  exact ⟨⟨hc, .refl t, .reti hr⟩, hd, congrArg Prod.fst hv, hm 1 hk⟩

end DotMatrix.Core
