import DotMatrix.Cpu.Execute
import DotMatrix.Cpu.Flat
import DotMatrix.Proofs.Machine.Storage

namespace DotMatrix

-- Where a byte is kept.
inductive Cell
  | reg (r : Register)
  | mem (a : UInt16)
  deriving DecidableEq

-- A byte that is put in the place of the one at address `a` is found there, and it is not seen at
-- address `c` if that is another one.
def Bus.Holds {β : Type} [Bus β] (b : β) (a c : UInt16) : Prop :=
  ∀ v, (Bus.read (Bus.write (Bus.read b a).2 a v) c).1 = if c = a then v else (Bus.read b c).1

theorem Flat.get_set (m : Flat) (a c : UInt16) (v : UInt8) :
    (m.set a v).get c = if c = a then v else m.get c := by
  split
  case isTrue h =>
    subst h
    exact m.bytes.read_write_self c.toNat v (by decide)
  case isFalse h =>
    refine m.bytes.read_write_of_ne v fun hm => h (UInt16.toNat_inj.mp ?_)
    have ha := a.toNat_lt
    have hc := c.toNat_lt
    omega

-- Memory that is nothing else holds its bytes everywhere.
theorem Flat.holds (m : Flat) (a c : UInt16) : Bus.Holds m a c := m.get_set a c

-- The memories of the board do, unless the other view of work RAM is looked at.
theorem Board.holds (b : Board) {a c : UInt16} (ha : Region.Stores a)
    (hc : Region.Aliases a c → c = a) : Bus.Holds b a c := by
  intro v
  have hi : Region.Aliases a c ↔ c = a := ⟨hc, .inl⟩
  exact (b.read_write_of_stores v c ha).trans (by simp only [hi]; rfl)

theorem Cpu.get_set (cpu : Cpu) (r x : Register) (v : UInt8) :
    (cpu.set r v).get x = if x = r then v else cpu.get x := by
  cases r <;> cases x <;> rfl

namespace Core

variable {β : Type}

-- Where an instruction finds its byte.
def cell (s : Core β) : Place → Cell
  | .reg r => .reg r
  | .memHl => .mem s.cpu.hl

variable [Bus β]

def peek (s : Core β) : Cell → UInt8
  | .reg r => s.cpu.get r
  | .mem a => (s.read a).1

theorem peek_flat (s : Core Flat) (a : UInt16) : s.peek (.mem a) = s.bus.get a := rfl

variable (s : Core β) (p : Place) (f : UInt8 → Flags → UInt8 × Flags)

theorem flags_update : (s.update p f).cpu.flags = (f (s.peek (s.cell p)) s.cpu.flags).2 := by
  cases p <;> rfl

-- A byte is changed in its place and nowhere else.
theorem peek_update {c : Cell}
    (hs : ∀ a x, s.cell p = .mem a → c = .mem x → Bus.Holds s.bus a x) :
    (s.update p f).peek c =
      if c = s.cell p then (f (s.peek (s.cell p)) s.cpu.flags).1 else s.peek c := by
  cases p <;> cases c
  case reg.reg r x =>
    simp only [cell, Cell.reg.injEq]
    exact s.cpu.get_set r x _
  case reg.mem r a => rfl
  case memHl.reg x => rfl
  case memHl.mem a =>
    simp only [cell, Cell.mem.injEq]
    exact hs _ a rfl rfl _

end Core

section Sequence

variable {α : Type} {cell : α → Cell} {before after : α → Cell → UInt8} {us : List α}

-- If nothing happens to some cells between the uses of them and each use changes but its own one,
-- every use finds what was there at first.
theorem eq_head_of_isChain {cells : List Cell} (hn : us ≠ [])
    (hl : us.IsChain fun u v => ∀ c ∈ cells, before v c = after u c)
    (hk : ∀ u ∈ us, ∀ c ∈ cells, c ≠ cell u → after u c = before u c)
    (hs : ∀ u ∈ us, cell u ∈ cells) (hd : (us.map cell).Nodup) :
    ∀ u ∈ us, before u (cell u) = before (us.head hn) (cell u) := by
  induction us with
  | nil => contradiction
  | cons u vs ih =>
    intro w hw
    rcases List.mem_cons.mp hw with rfl | hw
    case inl => rfl
    case inr =>
      cases vs with
      | nil => contradiction
      | cons v vs =>
        obtain ⟨hc, hl⟩ := List.isChain_cons_cons.mp hl
        obtain ⟨hu, hd⟩ := List.nodup_cons.mp hd
        have hm := hs w (List.mem_cons_of_mem _ hw)
        have hne : cell w ≠ cell u := fun h => hu (h ▸ List.mem_map_of_mem hw)
        calc before w (cell w)
          _ = before v (cell w) := ih (List.cons_ne_nil v vs) hl
              (fun u hm => hk u (List.mem_cons_of_mem _ hm))
              (fun u hm => hs u (List.mem_cons_of_mem _ hm)) hd w hw
          _ = after u (cell w)  := hc _ hm
          _ = before u (cell w) := hk u List.mem_cons_self _ hm hne

-- What each of them leaves is there in the end: it is what the uses find in the opposite order.
theorem eq_getLast_of_isChain {cells : List Cell} (hn : us ≠ [])
    (hl : us.IsChain fun u v => ∀ c ∈ cells, before v c = after u c)
    (hk : ∀ u ∈ us, ∀ c ∈ cells, c ≠ cell u → after u c = before u c)
    (hs : ∀ u ∈ us, cell u ∈ cells) (hd : (us.map cell).Nodup) :
    ∀ u ∈ us, after u (cell u) = after (us.getLast hn) (cell u) := by
  have hr : us.reverse ≠ [] := by simpa using hn
  have h : ∀ u ∈ us.reverse, after u (cell u) = after (us.reverse.head hr) (cell u) :=
    eq_head_of_isChain hr (List.isChain_reverse.mpr (hl.imp fun u v h c hc => (h c hc).symm))
      (fun u hm c hc hne => (hk u (List.mem_reverse.mp hm) c hc hne).symm)
      (fun u hm => hs u (List.mem_reverse.mp hm))
      (by rwa [List.map_reverse, List.nodup_reverse])
  simpa only [List.mem_reverse, List.head_reverse] using h

end Sequence
end DotMatrix
