import DotMatrix.Video.Schedule

namespace DotMatrix

namespace Video

-- Where the schedule is within a frame.
structure Beam where
  mode : Mode
  line : Nat
  deriving Repr, DecidableEq

namespace Beam

-- The lines that belong to the mode.
def Valid : Beam → Prop
  | ⟨.vblank, line⟩ => Clock.visibleLines ≤ line ∧ line < Clock.frameLines
  | ⟨_, line⟩       => line < Clock.visibleLines

-- The beam at a tick of a frame.
def atTick (t : Nat) : Beam where
  line := t / Clock.ticksPerLine
  mode :=
    if Clock.visibleLines ≤ t / Clock.ticksPerLine then .vblank
    else if t % Clock.ticksPerLine < 80 then .oamScan
    else if t % Clock.ticksPerLine < 248 then .transfer
    else .hblank

-- The tick of a frame at which the beam gets there.
def start : Beam → Nat
  | ⟨.oamScan, line⟩ | ⟨.vblank, line⟩ => Clock.ticksPerLine * line
  | ⟨.transfer, line⟩                  => Clock.ticksPerLine * line + 80
  | ⟨.hblank, line⟩                    => Clock.ticksPerLine * line + 248

-- The last line before the beam goes on to another mode, or to the next line of the blank.
def EndsPicture (b : Beam) : Prop := b.mode = .hblank ∧ b.line + 1 = Clock.visibleLines

def EndsFrame (b : Beam) : Prop := b.mode = .vblank ∧ b.line + 1 = Clock.frameLines

instance (b : Beam) : Decidable b.EndsPicture := inferInstanceAs (Decidable (_ ∧ _))

instance (b : Beam) : Decidable b.EndsFrame := inferInstanceAs (Decidable (_ ∧ _))

def next (b : Beam) : Beam :=
  match b.mode with
  | .oamScan  => { b with mode := .transfer }
  | .transfer => { b with mode := .hblank }
  | .hblank   => { mode := if b.EndsPicture then .vblank else .oamScan, line := b.line + 1 }
  | .vblank   => if b.EndsFrame then ⟨.oamScan, 0⟩ else { b with line := b.line + 1 }

-- The lines of the frame that have been handed over.
def linesDone : Beam → Nat
  | ⟨.oamScan, line⟩ | ⟨.transfer, line⟩ => line
  | ⟨.hblank, line⟩                      => line + 1
  | ⟨.vblank, _⟩                         => Clock.visibleLines

-- The vertical blanks of the frame that have begun.
def vblanksDone (b : Beam) : Nat := if b.mode = .vblank then 1 else 0

variable {b : Beam}

theorem Valid.next (h : b.Valid) : b.next.Valid := by
  obtain ⟨mode, line⟩ := b
  cases mode
  case oamScan | transfer => exact h
  case hblank =>
    by_cases he : line + 1 = Clock.visibleLines
      <;> simp_all [Beam.next, EndsPicture, Valid, Clock.frameLines, Clock.visibleLines]
    omega
  case vblank =>
    by_cases he : line + 1 = Clock.frameLines
      <;> simp_all [Beam.next, EndsFrame, Valid, Clock.frameLines, Clock.visibleLines]
    omega

-- The ticks of a mode lead to the next place, in this frame or at the start of another.
theorem start_next :
    b.start + b.mode.dots = b.next.start + if b.EndsFrame then Clock.ticksPerFrame else 0 := by
  obtain ⟨mode, line⟩ := b
  cases mode
  case oamScan | transfer => simp [Beam.next, start, Mode.dots, EndsFrame, Nat.add_assoc]
  case hblank =>
    by_cases he : line + 1 = Clock.visibleLines
      <;> simp [Beam.next, start, Mode.dots, EndsPicture, EndsFrame, he, Clock.ticksPerLine]
    all_goals omega
  case vblank =>
    by_cases he : line + 1 = Clock.frameLines
    case pos =>
      obtain rfl : line = 153 := Nat.succ.inj he
      rfl
    case neg =>
      simp only [Beam.next, start, Mode.dots, EndsFrame, he, and_false, if_false,
        Clock.ticksPerLine]
      omega

theorem linesDone_next :
    b.linesDone + (if b.mode = .transfer then 1 else 0) =
      b.next.linesDone + if b.EndsFrame then Clock.visibleLines else 0 := by
  obtain ⟨mode, line⟩ := b
  cases mode
  case oamScan | transfer => simp [Beam.next, linesDone, EndsFrame]
  case hblank =>
    by_cases he : line + 1 = Clock.visibleLines
      <;> simp [Beam.next, linesDone, EndsPicture, EndsFrame, he]
  case vblank =>
    by_cases he : line + 1 = Clock.frameLines <;> simp [Beam.next, linesDone, EndsFrame, he]

theorem vblanksDone_next :
    b.vblanksDone + (if b.EndsPicture then 1 else 0) =
      b.next.vblanksDone + if b.EndsFrame then 1 else 0 := by
  obtain ⟨mode, line⟩ := b
  cases mode
  case oamScan | transfer => simp [Beam.next, vblanksDone, EndsPicture, EndsFrame]
  case hblank =>
    by_cases he : line + 1 = Clock.visibleLines
      <;> simp [Beam.next, vblanksDone, EndsPicture, EndsFrame, he]
  case vblank =>
    by_cases he : line + 1 = Clock.frameLines
      <;> simp [Beam.next, vblanksDone, EndsPicture, EndsFrame, he]

theorem start_lt (h : b.Valid) : b.start + b.mode.dots ≤ Clock.ticksPerFrame := by
  obtain ⟨mode, line⟩ := b
  cases mode <;>
    simp only [Valid, start, Mode.dots, Clock.ticksPerFrame, Clock.frameLines, Clock.visibleLines,
      Clock.ticksPerLine] at h ⊢ <;> omega

theorem atTick_add (line : Nat) {t : Nat} (h : t < Clock.ticksPerLine) :
    atTick (Clock.ticksPerLine * line + t) = {
      line
      mode :=
        if Clock.visibleLines ≤ line then .vblank
        else if t < 80 then .oamScan
        else if t < 248 then .transfer
        else .hblank } := by
  have hd : (Clock.ticksPerLine * line + t) / Clock.ticksPerLine = line := by
    rw [Nat.mul_add_div (Nat.zero_lt_of_lt h), Nat.div_eq_of_lt h, Nat.add_zero]
  have hm : (Clock.ticksPerLine * line + t) % Clock.ticksPerLine = t := by
    rw [Nat.mul_add_mod, Nat.mod_eq_of_lt h]
  simp only [atTick, hd, hm]

-- A place and the ticks spent there tell the tick of the frame.
theorem atTick_start_add (h : b.Valid) {elapsed : Nat} (he : elapsed < b.mode.dots) :
    atTick (b.start + elapsed) = b := by
  obtain ⟨mode, line⟩ := b
  cases mode <;> simp only [Valid, Mode.dots] at h he
  case oamScan =>
    rw [start, atTick_add line (Nat.lt_trans he (by decide))]
    simp [Nat.not_le.mpr h, he]
  case transfer =>
    rw [start, Nat.add_assoc, atTick_add line (by simp only [Clock.ticksPerLine]; omega)]
    have h₁ : ¬80 + elapsed < 80 := by omega
    have h₂ : 80 + elapsed < 248 := by omega
    simp [Nat.not_le.mpr h, h₂]
  case hblank =>
    rw [start, Nat.add_assoc, atTick_add line (by simp only [Clock.ticksPerLine]; omega)]
    have h₁ : ¬248 + elapsed < 80 := by omega
    simp [Nat.not_le.mpr h, h₁]
  case vblank =>
    rw [start, atTick_add line he]
    simp [h.left]

end Beam
end Video

open Video

namespace Ppu

variable (p : Ppu)

-- Where the schedule of the unit is.
def beam : Beam := ⟨p.mode, p.ly.toNat⟩

variable {p}

theorem countWindowLine_kept (p : Ppu) : ∃ wly, p.countWindowLine = { p with wly } := by
  simp only [countWindowLine]
  split <;> exact ⟨_, rfl⟩

theorem countWindowLine_ly : p.countWindowLine.ly = p.ly := by
  obtain ⟨_, h⟩ := p.countWindowLine_kept
  rw [h]

theorem toNat_succ_ly (h : p.beam.Valid) : (p.ly + 1).toNat = p.ly.toNat + 1 := by
  have hl : p.ly.toNat < 255 := by
    cases hm : p.mode <;> simp only [beam, hm, Beam.Valid] at h
    case vblank => exact Nat.lt_trans h.right (by decide)
    all_goals exact Nat.lt_trans h (by decide)
  rw [UInt8.toNat_add]
  exact Nat.mod_eq_of_lt (Nat.succ_lt_succ hl)

theorem beam_nextMode (h : p.beam.Valid) : p.nextMode.ppu.beam = p.beam.next := by
  have hl := toNat_succ_ly h
  cases hm : p.mode
  case oamScan => simp [nextMode, hm, enter, beam, Beam.next]
  case transfer => simp [nextMode, hm, enter, beam, Beam.next, countWindowLine_ly]
  case hblank => simp [nextMode, hm, enter, goToLine, beam, Beam.next, Beam.EndsPicture, hl]
  case vblank =>
    simp only [nextMode, beam, hm, Beam.next, Beam.EndsFrame, true_and]
    split
    · rfl
    · simp [goToLine, hm, hl]

theorem dots_nextMode (h : p.dots.period = p.mode.dots) :
    p.nextMode.ppu.dots = p.dots.rearm p.nextMode.ppu.mode.dots := by
  cases hm : p.mode
  case oamScan => simp [nextMode, hm, enter]
  case transfer => simp [nextMode, hm, enter, countWindowLine_dots]
  case hblank => simp [nextMode, hm, enter, goToLine]
  case vblank =>
    simp only [nextMode, hm]
    split
    · rfl
    -- From one blank line to the next the period stays.
    · simp only [goToLine, Counter.rearm, ← h]

theorem line_nextMode :
    p.nextMode.line = if p.mode = .transfer then some (p.ly.toNat, p.renderLine) else none := by
  cases hm : p.mode <;> simp [nextMode, hm]
  split <;> rfl

theorem vblank_nextMode (h : p.beam.Valid) : p.nextMode.vblank = decide p.beam.EndsPicture := by
  have hl := toNat_succ_ly h
  cases hm : p.mode <;> simp [nextMode, hm, beam, Beam.EndsPicture]
  case hblank => simp [goToLine, hl, BEq.beq]
  case vblank => split <;> rfl

-- The schedule keeps the memories and all registers but the current line.
theorem nextMode_kept (p : Ppu) :
    ∃ ly wly mode dots, p.nextMode.ppu = { p with ly, wly, mode, dots } := by
  cases hm : p.mode <;> simp only [nextMode, hm, enter, goToLine]
  case transfer =>
    obtain ⟨wly, hw⟩ := p.countWindowLine_kept
    exact ⟨_, wly, _, _, by rw [hw]⟩
  case vblank => split <;> exact ⟨_, _, _, _, rfl⟩
  all_goals exact ⟨_, _, _, _, rfl⟩

theorem lcdc_nextMode : p.nextMode.ppu.lcdc = p.lcdc := by
  obtain ⟨_, _, _, _, h⟩ := p.nextMode_kept
  rw [h]

end Ppu
end DotMatrix
