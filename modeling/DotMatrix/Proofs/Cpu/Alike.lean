import DotMatrix.Proofs.Cpu.KeptFlags

namespace DotMatrix

-- Buses in the relation answer alike to reads and writes, and stay in it.
structure MemoryAlike {α β : Type} [Bus α] [Bus β] (R : α → β → Prop) : Prop where
  read : ∀ {x y}, R x y → ∀ a,
    (Bus.read x a).fst = (Bus.read y a).fst ∧ R (Bus.read x a).snd (Bus.read y a).snd
  write : ∀ {x y}, R x y → ∀ a v, R (Bus.write x a v) (Bus.write y a v)

-- They have the same interrupts as well.
structure BusAlike {α β : Type} [Bus α] [Bus β] (R : α → β → Prop) : Prop
    extends MemoryAlike R where
  pending : ∀ {x y}, R x y → Bus.pending x = Bus.pending y
  acknowledge : ∀ {x y}, R x y →
    (Bus.acknowledge x).fst = (Bus.acknowledge y).fst ∧
    R (Bus.acknowledge x).snd (Bus.acknowledge y).snd

namespace Core

variable {α β γ : Type} {R : α → β → Prop} {s : Core α} {t : Core β}

-- The same processor on buses in the relation.
structure Alike (R : α → β → Prop) (s : Core α) (t : Core β) : Prop where
  cpu : s.cpu = t.cpu
  bus : R s.bus t.bus

-- The same answer, and alike afterwards.
def Agree (R : α → β → Prop) (x : γ × Core α) (y : γ × Core β) : Prop :=
  ∃ v s t, x = (v, s) ∧ y = (v, t) ∧ s.Alike R t

namespace Alike

theorem agree (h : s.Alike R t) (v : γ) : Agree R (v, s) (v, t) :=
  ⟨v, s, t, rfl, rfl, h⟩

theorem mapCpu (h : s.Alike R t) (f : Cpu → Cpu) : (s.mapCpu f).Alike R (t.mapCpu f) :=
  ⟨congrArg f h.cpu, h.bus⟩

theorem of_bus {cpu : Cpu} {x : α} {y : β} (h : R x y) :
    Alike R { cpu, bus := x } { cpu, bus := y } :=
  ⟨rfl, h⟩

theorem jumpTo (h : s.Alike R t) (a : UInt16) : (s.jumpTo a).Alike R (t.jumpTo a) :=
  h.mapCpu _

variable [Bus α] [Bus β]

theorem read (hb : MemoryAlike R) (h : s.Alike R t) (a : UInt16) :
    Agree R (s.read a) (t.read a) := by
  have ⟨hv, hr⟩ := hb.read h.bus a
  exact ⟨_, _, _, rfl, Prod.ext hv.symm rfl, h.cpu, hr⟩

theorem write (hb : MemoryAlike R) (h : s.Alike R t) (a : UInt16) (v : UInt8) :
    (s.write a v).Alike R (t.write a v) :=
  ⟨h.cpu, hb.write h.bus a v⟩

theorem readWord (hb : MemoryAlike R) (h : s.Alike R t) (a : UInt16) :
    Agree R (s.readWord a) (t.readWord a) := by
  have ⟨low, s', t', hs, ht, h⟩ := h.read hb a
  have ⟨high, s', t', hs', ht', h⟩ := h.read hb (a + 1)
  simp only [Core.readWord, hs, ht, hs', ht']
  exact h.agree _

theorem writeWord (hb : MemoryAlike R) (h : s.Alike R t) (a v : UInt16) :
    (s.writeWord a v).Alike R (t.writeWord a v) :=
  h.write hb a _ |>.write hb (a + 1) _

theorem fetch (hb : MemoryAlike R) (h : s.Alike R t) : Agree R s.fetch t.fetch := by
  have ⟨v, s', t', hs, ht, h'⟩ := h.read hb t.cpu.pc
  simp only [Core.fetch, h.cpu, hs, ht]
  exact h'.mapCpu _ |>.agree v

theorem fetchWord (hb : MemoryAlike R) (h : s.Alike R t) : Agree R s.fetchWord t.fetchWord := by
  have ⟨v, s', t', hs, ht, h'⟩ := h.readWord hb t.cpu.pc
  simp only [Core.fetchWord, h.cpu, hs, ht]
  exact h'.mapCpu _ |>.agree v

theorem push (hb : MemoryAlike R) (h : s.Alike R t) (v : UInt16) :
    (s.push v).Alike R (t.push v) := by
  simp only [Core.push]
  have h := h.mapCpu fun cpu => { cpu with sp := cpu.sp - 2 }
  rw [h.cpu]
  exact h.writeWord hb _ v

theorem pop (hb : MemoryAlike R) (h : s.Alike R t) : Agree R s.pop t.pop := by
  have ⟨v, s', t', hs, ht, h'⟩ := h.readWord hb t.cpu.sp
  simp only [Core.pop, h.cpu, hs, ht]
  exact h'.mapCpu _ |>.agree v

theorem callTo (hb : MemoryAlike R) (h : s.Alike R t) (a : UInt16) :
    (s.callTo a).Alike R (t.callTo a) := by
  simp only [Core.callTo, h.cpu]
  exact h.push hb _ |>.jumpTo a

theorem readPlace (hb : MemoryAlike R) (h : s.Alike R t) (p : Place) :
    Agree R (s.readPlace p) (t.readPlace p) := by
  cases p <;> simp only [Core.readPlace, h.cpu]
  case reg   => exact h.agree _
  case memHl => exact h.read hb _

theorem writePlace (hb : MemoryAlike R) (h : s.Alike R t) (p : Place) (v : UInt8) :
    (s.writePlace p v).Alike R (t.writePlace p v) := by
  cases p <;> simp only [Core.writePlace, h.cpu]
  case reg   => exact h.mapCpu _
  case memHl => exact h.write hb _ v

theorem readOperand (hb : MemoryAlike R) (h : s.Alike R t) (src : Operand) :
    Agree R (s.readOperand src) (t.readOperand src) := by
  cases src
  case place p => exact h.readPlace hb p
  case imm     => exact h.fetch hb

theorem resolve (hb : MemoryAlike R) (h : s.Alike R t) (a : Address) :
    Agree R (s.resolve a) (t.resolve a) := by
  cases a <;> simp only [Core.resolve, h.cpu]
  case bc | de | pageC => exact h.agree _
  case hlInc | hlDec   => exact h.mapCpu _ |>.agree _
  case imm             => exact h.fetchWord hb
  case pageImm =>
    have ⟨low, s', t', hs, ht, h⟩ := h.fetch hb
    simp only [hs, ht]
    exact h.agree _

theorem update (hb : MemoryAlike R) (h : s.Alike R t) (p : Place)
    (f : UInt8 → Flags → UInt8 × Flags) : (s.update p f).Alike R (t.update p f) := by
  have ⟨v, s', t', hs, ht, h⟩ := h.readPlace hb p
  simp only [Core.update, hs, ht, h.cpu]
  exact h.writePlace hb p _ |>.mapCpu _

section Execute

variable {i : Instruction}

theorem execute_move (hb : MemoryAlike R) (h : s.Alike R t) (hk : i.kind = .move) :
    (s.execute i).Alike R (t.execute i) := by
  cases i with
  | load dst src =>
    obtain ⟨v, s', t', hs, ht, h⟩ := h.readOperand hb src
    simp only [Core.execute, hs, ht]
    exact h.writePlace hb dst v
  | loadA src =>
    obtain ⟨a, s', t', hs, ht, h⟩ := h.resolve hb src
    obtain ⟨v, s', t', hs', ht', h⟩ := h.read hb a
    simp only [Core.execute, hs, ht, hs', ht']
    exact h.mapCpu _
  | storeA dst =>
    obtain ⟨a, s', t', hs, ht, h⟩ := h.resolve hb dst
    simp only [Core.execute, hs, ht, h.cpu]
    exact h.write hb a _
  | loadPair rr =>
    obtain ⟨v, s', t', hs, ht, h⟩ := h.fetchWord hb
    simp only [Core.execute, hs, ht]
    exact h.mapCpu _
  | storeSp =>
    obtain ⟨a, s', t', hs, ht, h⟩ := h.fetchWord hb
    simp only [Core.execute, hs, ht, h.cpu]
    exact h.writeWord hb a _
  | copyHlToSp =>
    simp only [Core.execute]
    exact h.mapCpu _
  | push rr =>
    simp only [Core.execute, h.cpu]
    exact h.push hb _
  | pop rr =>
    obtain ⟨v, s', t', hs, ht, h⟩ := h.pop hb
    simp only [Core.execute, hs, ht]
    exact h.mapCpu _
  | _ => cases hk

theorem execute_word (hb : MemoryAlike R) (h : s.Alike R t) (hk : i.kind = .word) :
    (s.execute i).Alike R (t.execute i) := by
  cases i with
  | offsetToHl | offsetToSp =>
    obtain ⟨offset, s', t', hs, ht, h⟩ := h.fetch hb
    simp only [Core.execute, hs, ht]
    exact h.mapCpu _
  | incPair rr | decPair rr | addHl rr =>
    simp only [Core.execute]
    exact h.mapCpu _
  | _ => cases hk

theorem execute_byte (hb : MemoryAlike R) (h : s.Alike R t) (hk : i.kind = .byte) :
    (s.execute i).Alike R (t.execute i) := by
  cases i with
  | alu op src =>
    obtain ⟨v, s', t', hs, ht, h⟩ := h.readOperand hb src
    simp only [Core.execute, hs, ht]
    exact h.mapCpu _
  | inc p | dec p | shift op p =>
    simp only [Core.execute]
    exact h.update hb p _
  | rotateA op | daa | cpl | scf | ccf =>
    simp only [Core.execute]
    exact h.mapCpu _
  | _ => cases hk

theorem execute_bit (hb : MemoryAlike R) (h : s.Alike R t) (hk : i.kind = .bit) :
    (s.execute i).Alike R (t.execute i) := by
  cases i with
  | bit i p =>
    obtain ⟨v, s', t', hs, ht, h⟩ := h.readPlace hb p
    simp only [Core.execute, hs, ht]
    exact h.mapCpu _
  | res i p | set i p =>
    obtain ⟨v, s', t', hs, ht, h⟩ := h.readPlace hb p
    simp only [Core.execute, hs, ht]
    exact h.writePlace hb p _
  | _ => cases hk

-- Both processors have the same flags, so both branch or neither does.
theorem execute_branch (hb : MemoryAlike R) (h : s.Alike R t) (hk : i.kind = .branch) :
    (s.execute i).Alike R (t.execute i) := by
  cases i with
  | jump cond =>
    obtain ⟨a, s', t', hs, ht, h⟩ := h.fetchWord hb
    simp only [Core.execute, hs, ht, h.cpu]
    split
    · exact h.jumpTo a
    · exact h
  | jumpRelative cond =>
    obtain ⟨offset, s', t', hs, ht, h⟩ := h.fetch hb
    simp only [Core.execute, hs, ht, h.cpu]
    split
    · exact h.jumpTo _
    · exact h
  | call cond =>
    obtain ⟨a, s', t', hs, ht, h⟩ := h.fetchWord hb
    simp only [Core.execute, hs, ht, h.cpu]
    split
    · exact h.callTo hb a
    · exact h
  | ret cond =>
    obtain ⟨a, s', t', hs, ht, h'⟩ := h.pop hb
    simp only [Core.execute, hs, ht, h.cpu]
    split
    · exact h'.jumpTo a
    · exact h
  | jumpHl =>
    simp only [Core.execute, h.cpu]
    exact h.jumpTo _
  | reti =>
    obtain ⟨a, s', t', hs, ht, h⟩ := h.pop hb
    simp only [Core.execute, hs, ht]
    exact h.mapCpu _
  | rst vector => exact h.callTo hb _
  | _ => cases hk

theorem execute_control (hb : MemoryAlike R) (h : s.Alike R t) (hk : i.kind = .control) :
    (s.execute i).Alike R (t.execute i) := by
  cases i with
  | nop => exact h
  | di | ei | halt =>
    simp only [Core.execute]
    exact h.mapCpu _
  | stop =>
    obtain ⟨v, s', t', hs, ht, h⟩ := h.fetch hb
    simp only [Core.execute, hs, ht]
    exact h
  | _ => cases hk

theorem execute (hb : MemoryAlike R) (h : s.Alike R t) (i : Instruction) :
    (s.execute i).Alike R (t.execute i) := by
  cases hk : i.kind
  case move    => exact h.execute_move hb hk
  case word    => exact h.execute_word hb hk
  case byte    => exact h.execute_byte hb hk
  case bit     => exact h.execute_bit hb hk
  case branch  => exact h.execute_branch hb hk
  case control => exact h.execute_control hb hk

end Execute

theorem executeNext (hb : MemoryAlike R) (h : s.Alike R t) :
    Agree R s.executeNext t.executeNext := by
  obtain ⟨opcode, s', t', hs, ht, h'⟩ := h.fetch hb
  simp only [Core.executeNext, hs, ht, h.cpu]
  split
  · obtain ⟨opcode, s', t', hs, ht, h'⟩ := h'.fetch hb
    simp only [hs, ht, h'.cpu]
    exact h'.execute hb _ |>.agree _
  · split
    · rw [h'.cpu]
      exact h'.execute hb _ |>.agree _
    · exact h'.jumpTo _ |>.agree _

theorem acknowledge (hb : BusAlike R) (h : s.Alike R t) :
    ∃ line x y, Bus.acknowledge s.bus = (line, x) ∧ Bus.acknowledge t.bus = (line, y) ∧ R x y := by
  obtain ⟨hl, hr⟩ := hb.acknowledge h.bus
  exact ⟨_, _, _, rfl, Prod.ext hl.symm rfl, hr⟩

theorem dispatch (hb : BusAlike R) (h : s.Alike R t) : Agree R s.dispatch t.dispatch := by
  simp only [Core.dispatch, hb.pending h.bus]
  split
  · have h := h.mapCpu fun cpu => { cpu with halted := false }
    obtain ⟨line, x, y, hs, ht, hr⟩ := h.acknowledge hb
    simp only [h.cpu, hs, ht]
    split
    · cases line
      case none      => exact of_bus hr |>.agree _
      case some line => exact of_bus hr |>.mapCpu _ |>.callTo hb.toMemoryAlike _ |>.agree _
    · exact h.agree _
  · exact h.agree _

theorem step (hb : BusAlike R) (h : s.Alike R t) : Agree R s.step t.step := by
  obtain ⟨served, s', t', hs, ht, h⟩ := h.dispatch hb
  simp only [Core.step, hs, ht]
  cases served
  case true => exact h.agree _
  case false =>
    simp only [h.cpu]
    split
    · exact h.agree _
    · exact h.executeNext hb.toMemoryAlike

end Alike
end Core
end DotMatrix
