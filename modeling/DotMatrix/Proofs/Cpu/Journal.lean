import DotMatrix.Proofs.Cpu.Alike

namespace DotMatrix

inductive Entry
  | read (a : UInt16)
  | write (a : UInt16) (v : UInt8)
  | serve (line : Fin 5)
  deriving Repr, DecidableEq

-- A bus that behaves as the one inside it and keeps a journal.
structure Journal (β : Type) where
  bus     : β
  entries : List Entry := []

namespace Journal

variable {β : Type} [Bus β]

instance : Bus (Journal β) where
  read j a :=
    let (v, bus) := Bus.read j.bus a
    (v, { bus, entries := j.entries ++ [.read a] })
  write j a v := { bus := Bus.write j.bus a v, entries := j.entries ++ [.write a v] }
  pending j := Bus.pending j.bus
  acknowledge j :=
    let (line, bus) := Bus.acknowledge j.bus
    (line, { bus, entries := j.entries ++ line.toList.map .serve })

-- What goes on to hold of a bus and the journal of its traffic.
structure Kept (P : List Entry → β → Prop) : Prop where
  read        : ∀ {es b}, P es b → ∀ a, P (es ++ [.read a]) (Bus.read b a).snd
  write       : ∀ {es b}, P es b → ∀ a v, P (es ++ [.write a v]) (Bus.write b a v)
  acknowledge : ∀ {es b}, P es b →
    P (es ++ (Bus.acknowledge b).fst.toList.map .serve) (Bus.acknowledge b).snd

-- The journal is that of the bus.
structure Tells (P : List Entry → β → Prop) (j : Journal β) (b : β) : Prop where
  bus  : j.bus = b
  kept : P j.entries b

variable {P : List Entry → β → Prop}

theorem busAlike_tells (hk : Kept P) : BusAlike (Tells P) where
  read h a      := h.bus ▸ ⟨rfl, rfl, hk.read (h.bus ▸ h.kept) a⟩
  write h a v   := ⟨congrArg (Bus.write · a v) h.bus, hk.write h.kept a v⟩
  pending h     := congrArg Bus.pending h.bus
  acknowledge h := h.bus ▸ ⟨rfl, rfl, hk.acknowledge (h.bus ▸ h.kept)⟩

-- A journal that tells of no served interrupt.
def Unserved (es : List Entry) : Prop := ∀ line, .serve line ∉ es

theorem unserved_nil : Unserved [] := fun _ => List.not_mem_nil

theorem Unserved.concat {es : List Entry} (h : Unserved es) {e : Entry}
    (he : ∀ line, e ≠ .serve line) : Unserved (es ++ [e]) := by
  intro line hm
  cases List.mem_append.mp hm
  case inl hm => exact h line hm
  case inr hm => exact he line (List.mem_singleton.mp hm).symm

theorem memoryAlike_unserved :
    MemoryAlike fun i j : Journal β => i = j ∧ Unserved i.entries where
  read h a    :=
    ⟨by rw [h.left], congrArg (fun j => (Bus.read j a).snd) h.left, h.right.concat nofun⟩
  write h a v := ⟨congrArg (Bus.write · a v) h.left, h.right.concat nofun⟩

end Journal

namespace Core

variable {β : Type} [Bus β] {s : Core β} {line : Fin 5} {bus : β}

-- The processor with an empty journal of its traffic.
def journaled (s : Core β) : Core (Journal β) := { cpu := s.cpu, bus := { bus := s.bus } }

-- The traffic of the next step.
def stepEntries (s : Core β) : List Entry := s.journaled.step.snd.bus.entries

theorem unserved_executeNext {s : Core (Journal β)} (h : Journal.Unserved s.bus.entries) :
    Journal.Unserved s.executeNext.snd.bus.entries := by
  have ha : s.Alike (fun i j => i = j ∧ Journal.Unserved i.entries) s := ⟨rfl, rfl, h⟩
  have ⟨_, _, _, hs, _, h⟩ := ha.executeNext Journal.memoryAlike_unserved
  rw [hs]
  exact h.bus.right

-- An interrupt is served if one is pending and the processor is open to it. Nothing is fetched: the
-- step clears the latch and leaves the way back on the stack.
theorem dispatch_of_serve (hp : Bus.pending s.bus) (hi : s.cpu.ime)
    (ha : Bus.acknowledge s.bus = (some line, bus)) :
    s.dispatch = (true, {
      cpu := { s.cpu with
        halted := false, ime := false, sp := s.cpu.sp - 2, pc := vector line }
      bus := Bus.write (Bus.write bus (s.cpu.sp - 2) (lowByte s.cpu.pc))
        (s.cpu.sp - 2 + 1) (highByte s.cpu.pc) }) := by
  simp only [dispatch, hp, if_true, mapCpu, hi, ha]
  rfl

theorem step_of_serve (hp : Bus.pending s.bus) (hi : s.cpu.ime)
    (ha : Bus.acknowledge s.bus = (some line, bus)) :
    s.step = (.ok dispatchCost, {
      cpu := { s.cpu with
        halted := false, ime := false, sp := s.cpu.sp - 2, pc := vector line }
      bus := Bus.write (Bus.write bus (s.cpu.sp - 2) (lowByte s.cpu.pc))
        (s.cpu.sp - 2 + 1) (highByte s.cpu.pc) }) := by
  rw [step, dispatch_of_serve hp hi ha]

theorem stepEntries_of_serve (hp : Bus.pending s.bus) (hi : s.cpu.ime)
    (ha : Bus.acknowledge s.bus = (some line, bus)) :
    s.stepEntries = [.serve line, .write (s.cpu.sp - 2) (lowByte s.cpu.pc),
      .write (s.cpu.sp - 2 + 1) (highByte s.cpu.pc)] := by
  have hj : Bus.acknowledge s.journaled.bus = (some line, { bus, entries := [.serve line] }) := by
    simp only [Bus.acknowledge, journaled]
    rw [ha]
    rfl
  rw [stepEntries, step_of_serve (s := s.journaled) hp hi hj]
  rfl

theorem dispatch_of_not (h : ¬(Bus.pending s.bus ∧ s.cpu.ime)) :
    ∃ cpu, s.dispatch = (false, { s with cpu }) := by
  simp only [dispatch]
  split
  case isFalse => exact ⟨s.cpu, rfl⟩
  case isTrue hp =>
    have hi : ¬s.cpu.ime := fun hi => h ⟨hp, hi⟩
    exact ⟨{ s.cpu with halted := false }, if_neg hi⟩

-- Otherwise the processor sleeps on or executes an instruction, and neither serves an interrupt.
theorem unserved_of_not (h : ¬(Bus.pending s.bus ∧ s.cpu.ime)) :
    Journal.Unserved s.stepEntries := by
  obtain ⟨cpu, hd⟩ := dispatch_of_not (s := s.journaled) h
  rw [stepEntries, step, hd]
  dsimp only
  split
  · exact Journal.unserved_nil
  · exact unserved_executeNext Journal.unserved_nil

end Core

theorem Journal.Kept.step {β : Type} [Bus β] {P : List Entry → β → Prop} (hk : Kept P)
    {s : Core β} (h : P [] s.bus) : P s.stepEntries s.step.snd.bus := by
  have hj : s.journaled.Alike (Tells P) s := ⟨rfl, rfl, h⟩
  have ⟨_, _, _, hs, ht, h⟩ := hj.step (busAlike_tells hk)
  rw [Core.stepEntries, hs, ht]
  exact h.bus.kept

end DotMatrix
