import DotMatrix.Clock
import DotMatrix.Video.Line

namespace DotMatrix

namespace Video

-- Takes the lines of the picture, one at a time, and may refuse one with a text.
class LineSink (η : Type) where
  draw : η → (line : Nat) → Scanline → Option String × η

-- What one change of mode asks for.
structure Transition where
  ppu    : Ppu
  -- A finished line, with its number.
  line   : Option (Nat × Scanline) := none
  vblank : Bool := false
  -- Requests of the status interrupt.
  stats  : Nat := 0

end Video

open Video

namespace Ppu

variable (p : Ppu)

-- Enters a mode, which may request the status interrupt.
def enter (mode : Mode) : Nat × Ppu :=
  ((mode.source.any (testBit p.stat)).toNat, { p with mode, dots := p.dots.rearm mode.dots })

-- Goes on to a line, which may request the status interrupt.
def goToLine (ly : UInt8) : Nat × Ppu :=
  ((ly == p.lyc && testBit p.stat 6).toNat, { p with ly })

-- The unit after its window has been drawn on the current line, if it is visible there.
def countWindowLine : Ppu := if p.windowVisible then { p with wly := p.wly + 1 } else p

-- Each visible line goes through three modes and is handed over at the end of the second; ten blank
-- lines follow.
def nextMode : Transition :=
  match p.mode with
  | .oamScan =>
    let (stats, ppu) := p.enter .transfer
    { ppu, stats }
  | .transfer =>
    let line := (p.ly.toNat, p.renderLine)
    let (stats, ppu) := p.countWindowLine.enter .hblank
    { ppu, line, stats }
  | .hblank =>
    let (onLine, ppu) := p.goToLine (p.ly + 1)
    let vblank := ppu.ly.toNat == Clock.visibleLines
    let (onMode, ppu) := ppu.enter (if vblank then .vblank else .oamScan)
    { ppu, vblank, stats := onLine + onMode }
  | .vblank =>
    if p.ly.toNat + 1 = Clock.frameLines then
      let (onLine, ppu) := { p with wly := 0 }.goToLine 0
      let (onMode, ppu) := ppu.enter .oamScan
      { ppu, stats := onLine + onMode }
    else
      let (stats, ppu) := p.goToLine (p.ly + 1)
      { ppu, stats }

theorem countWindowLine_dots : p.countWindowLine.dots = p.dots := by
  simp only [countWindowLine]
  split <;> rfl

-- A change of mode keeps the ticks collected towards the next one.
theorem nextMode_elapsed : p.nextMode.ppu.dots.elapsed = p.dots.elapsed := by
  unfold nextMode
  split
  · rfl
  · simp [enter, Counter.rearm, countWindowLine_dots]
  · rfl
  · split <;> rfl

end Ppu

namespace Video

-- A run of the unit with its sink, and what it asked for so far.
structure Run (η : Type) where
  ppu     : Ppu
  sink    : η
  vblanks : Nat := 0
  stats   : Nat := 0
  -- What the sink said when it first refused a line.
  refusal : Option String := none

namespace Run

variable {η : Type} [LineSink η]

-- Hands over a finished line, if there is one. A sink that refuses it changes nothing in the
-- schedule, and the first refusal is kept.
@[specialize]
def hand (s : Run η) : Option (Nat × Scanline) → Run η
  | some (n, pixels) =>
    let (refusal, sink) := LineSink.draw s.sink n pixels
    { s with sink, refusal := s.refusal <|> refusal }
  | none => s

-- Changes the mode once.
@[specialize]
def change (s : Run η) : Run η :=
  let t := { s.ppu with dots := s.ppu.dots.take }.nextMode
  { s with
    ppu     := t.ppu
    vblanks := s.vblanks + t.vblank.toNat
    stats   := s.stats + t.stats }.hand t.line

theorem hand_ppu (s : Run η) (line : Option (Nat × Scanline)) : (s.hand line).ppu = s.ppu := by
  cases line <;> rfl

theorem change_elapsed (s : Run η) :
    s.change.ppu.dots.elapsed = s.ppu.dots.take.elapsed := by
  simp only [change, hand_ppu, Ppu.nextMode_elapsed]

-- Changes the mode as often as it is due.
@[specialize]
def settle (s : Run η) : Run η :=
  if h : s.ppu.dots.Due then
    have : s.change.ppu.dots.elapsed < s.ppu.dots.elapsed := s.change_elapsed ▸ h.take_elapsed_lt
    s.change.settle
  else
    s
termination_by s.ppu.dots.elapsed

theorem settle_of_due {s : Run η} (h : s.ppu.dots.Due) : s.settle = s.change.settle := by
  rw [settle, dif_pos h]

theorem settle_of_not_due {s : Run η} (h : ¬s.ppu.dots.Due) : s.settle = s := by
  rw [settle, dif_neg h]

end Run
end Video

-- Lets time pass. Nothing happens while the screen is off.
@[specialize]
def Ppu.advance {η : Type} [LineSink η] (p : Ppu) (ticks : Nat) (sink : η) : Run η :=
  if p.lcdEnabled then
    Run.settle { ppu := { p with dots := p.dots.accrue ticks }, sink }
  else
    { ppu := p, sink }

end DotMatrix
