import DotMatrix.Proofs.Cpu.Record
import DotMatrix.Proofs.Machine.Dma
import DotMatrix.Proofs.Sound.Sampling
import DotMatrix.Proofs.Timer
import DotMatrix.Proofs.Video.Raster

namespace DotMatrix

namespace Ppu

variable {p : Ppu} {ticks lines vblanks : Nat}

theorem setLcdc_lcdc (p : Ppu) (v : UInt8) : (p.setLcdc v).lcdc = v := by
  simp only [setLcdc]
  split <;> rfl

-- Only the control register reaches the schedule.
theorem OnSchedule.writeRegister (h : p.OnSchedule ticks lines vblanks) {r : Video.Register}
    {v : UInt8} (hr : r = .lcdc → testBit v 7) :
    (p.writeRegister r v).OnSchedule ticks lines vblanks := by
  cases r
  case lcdc =>
    have hv : (p.setLcdc v).lcdEnabled := (congrArg (testBit · 7) (p.setLcdc_lcdc v)).trans (hr rfl)
    cases p.setLcdc_written v
    case kept _ hb hd         => exact h.congr hv hb hd
    case stopped _ hoff       => exact absurd hv (by simp [hoff.off])
    case started hoff _ _ _ _ => exact absurd h.on (by simp [hoff])
  all_goals exact h.congr h.on rfl rfl

end Ppu

-- Writes that leave the screen on, the divider alone, and the sound on.
def KeepsScreen (w : UInt16 × UInt8) : Prop := w.fst = 0xff40 → testBit w.snd 7

namespace Board

variable {b : Board} {ticks lines vblanks period : Nat}

theorem lasting_onSchedule :
    Lasting KeepsScreen fun b : Board => b.ppu.OnSchedule ticks lines vblanks where
  read h _      := h
  acknowledge h := h
  write {b} h a v hw := by
    simp only [Bus.write, write]
    cases hr : Region.ofAddress a
    case vram | oam => exact h.congr h.on rfl rfl
    case dma =>
      obtain ⟨_, _, hd⟩ := b.startDma_eq v
      exact hd ▸ h.congr h.on rfl rfl
    case video r =>
      exact h.writeRegister fun hl => hw (Region.eq_of_ofAddress (hl ▸ hr) rfl rfl)
    all_goals exact h

end Board
end DotMatrix
