import DotMatrix.Cpu.Recorder
import DotMatrix.Proofs.Cpu.Alike

namespace DotMatrix

-- What goes on to hold of a bus that is only read, and written to in some ways.
structure Lasting {β : Type} [Bus β] (W : UInt16 × UInt8 → Prop) (P : β → Prop) : Prop where
  read        : ∀ {b}, P b → ∀ a, P (Bus.read b a).snd
  write       : ∀ {b}, P b → ∀ {a v}, W (a, v) → P (Bus.write b a v)
  acknowledge : ∀ {b}, P b → P (Bus.acknowledge b).snd

namespace Recorder

variable {β : Type} [Bus β] {W : UInt16 × UInt8 → Prop} {P : β → Prop}

-- The recorder is on the bus, which has kept a property if all writes on record were of the kind
-- that keeps it.
structure Tells (W : UInt16 × UInt8 → Prop) (P : β → Prop) (r : Recorder β) (b : β) : Prop where
  bus  : r.bus = b
  kept : (∀ w ∈ r.writes, W w) → P b

theorem busAlike_tells (hl : Lasting W P) : BusAlike (Tells W P) where
  read h a := h.bus ▸ ⟨rfl, rfl, fun hw => hl.read (h.bus ▸ h.kept hw) a⟩
  write {x y} h a v := by
    refine ⟨congrArg (Bus.write · a v) h.bus, fun hw => ?_⟩
    have hw : ∀ w, w ∈ x.writes ∨ w = (a, v) → W w := fun w h => hw w (Array.mem_push.mpr h)
    exact hl.write (h.kept fun w h => hw w (.inl h)) (hw _ (.inr rfl))
  pending h     := congrArg Bus.pending h.bus
  acknowledge h := h.bus ▸ ⟨rfl, rfl, fun hw => hl.acknowledge (h.bus ▸ h.kept hw)⟩

end Recorder

namespace Core

variable {β : Type} {W : UInt16 × UInt8 → Prop} {P : β → Prop}

-- The processor with an empty record of what it writes.
def recorded (s : Core β) : Core (Recorder β) := { cpu := s.cpu, bus := { bus := s.bus } }

theorem recorded_alike {s : Core β} (h : P s.bus) : s.recorded.Alike (Recorder.Tells W P) s :=
  ⟨rfl, rfl, fun _ => h⟩

variable [Bus β]

-- What the next step writes, in order.
def stepWrites (s : Core β) : List (UInt16 × UInt8) := s.recorded.step.snd.bus.writes.toList

-- A record does not change the step.
theorem step_recorded (s : Core β) :
    s.recorded.step.fst = s.step.fst ∧
    s.recorded.step.snd.cpu = s.step.snd.cpu ∧
    s.recorded.step.snd.bus.bus = s.step.snd.bus := by
  have hl : Lasting (fun _ => True) fun _ : β => True := by constructor <;> intros <;> trivial
  have h : s.recorded.Alike (Recorder.Tells (fun _ => True) fun _ => True) s :=
    recorded_alike trivial
  have ⟨_, _, _, hs, ht, h⟩ := h.step (Recorder.busAlike_tells hl)
  exact ⟨by rw [hs, ht], by rw [hs, ht, h.cpu], by rw [hs, ht, h.bus.bus]⟩

end Core

theorem Lasting.step {β : Type} [Bus β] {W : UInt16 × UInt8 → Prop} {P : β → Prop}
    (hl : Lasting W P) {s : Core β} (h : P s.bus) (hw : ∀ w ∈ s.stepWrites, W w) :
    P s.step.snd.bus := by
  have ⟨_, _, _, hs, ht, h⟩ := (Core.recorded_alike h).step (Recorder.busAlike_tells hl)
  rw [Core.stepWrites, hs] at hw
  rw [ht]
  exact h.bus.kept (by simpa using hw)

end DotMatrix
