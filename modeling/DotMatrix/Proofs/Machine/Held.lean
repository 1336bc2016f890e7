import DotMatrix.Proofs.Joypad
import DotMatrix.Proofs.Machine.Dma
import DotMatrix.Proofs.Machine.History

namespace DotMatrix

open Video Sound

namespace Machine

variable {η : Type} [LineSink η] [SampleSink η] {held directions actions : UInt8}

-- No program reaches the held buttons.
theorem lasting_held : Lasting (fun _ => True) fun b : Board => b.joypad.held = held where
  read h _      := h
  acknowledge h := h
  write {b} h a v _ := by
    simp only [Bus.write, Board.write]
    cases Region.ofAddress a
    case dma =>
      obtain ⟨_, _, hd⟩ := b.startDma_eq v
      exact hd ▸ h
    all_goals exact h

theorem step_held (m : Machine) (host : η) :
    (m.step host).machine.core.bus.joypad.held = m.core.bus.joypad.held := by
  have hs := lasting_held.step (s := m.core) rfl fun _ _ => trivial
  cases hc : m.core.step
  case mk r core =>
    rw [hc] at hs
    cases r
    case error => rw [step_of_illegal hc, hs]
    case ok    => rw [step_of_ok hc]; exact hs

theorem runFrame_held (m : Machine) (host : η) :
    (m.runFrame host).machine.core.bus.joypad.held = m.core.bus.joypad.held :=
  runFrame_of_kept (P := fun n => n.core.bus.joypad.held = m.core.bus.joypad.held)
    (fun h _ host => (step_held _ host).trans h) (fun h _ => h) rfl host

-- To hold the same buttons again changes nothing.
theorem hold_of_held {m : Machine}
    (h : m.core.bus.joypad.held = Joypad.bits directions actions) :
    m.hold directions actions = m := by
  simp only [hold, mapBoard, Board.hold, Joypad.hold_of_held h]
  rfl

end Machine
end DotMatrix
