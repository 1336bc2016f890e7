import DotMatrix.Proofs.Video.Beam

namespace DotMatrix

open Video

namespace Ppu

variable {p : Ppu}

-- The unit is on, has completed `frames` frames since, and its counter holds the ticks since it got
-- to its place. They may be more than the mode lasts, as long as the change of mode is due.
structure Scheduled (p : Ppu) (frames ticks lines vblanks : Nat) : Prop where
  on      : p.lcdEnabled
  valid   : p.beam.Valid
  period  : p.dots.period = p.mode.dots
  ticks   : ticks = Clock.ticksPerFrame * frames + p.beam.start + p.dots.elapsed
  lines   : lines = Clock.visibleLines * frames + p.beam.linesDone
  vblanks : vblanks = frames + p.beam.vblanksDone

-- The schedule is at a tick of a frame, and no change of mode is due.
structure AtTick (p : Ppu) (t : Nat) : Prop where
  beam : p.beam = .atTick t
  dots : p.dots = { elapsed := t - p.beam.start, period := p.mode.dots }

-- The unit with one completed period taken off its counter, as it is when it changes its mode.
def takeDots (p : Ppu) : Ppu := { p with dots := p.dots.take }

namespace Scheduled

variable {frames ticks lines vblanks : Nat}

-- Of the unit, only the switch, the place and the counter matter.
theorem congr {q : Ppu} (h : p.Scheduled frames ticks lines vblanks) (hon : q.lcdEnabled)
    (hb : q.beam = p.beam) (hd : q.dots = p.dots) : q.Scheduled frames ticks lines vblanks where
  on      := hon
  valid   := hb ▸ h.valid
  period  := hd ▸ h.period.trans (congrArg (Beam.mode · |>.dots) hb.symm)
  ticks   := hb ▸ hd ▸ h.ticks
  lines   := hb ▸ h.lines
  vblanks := hb ▸ h.vblanks

theorem accrue (h : p.Scheduled frames ticks lines vblanks) (n : Nat) :
    { p with dots := p.dots.accrue n }.Scheduled frames (ticks + n) lines vblanks where
  on      := h.on
  valid   := h.valid
  period  := h.period
  ticks   := h.ticks ▸ Nat.add_assoc ..
  lines   := h.lines
  vblanks := h.vblanks

theorem nextMode (h : p.Scheduled frames ticks lines vblanks) (hd : p.dots.Due) :
    p.takeDots.nextMode.ppu.Scheduled (frames + if p.beam.EndsFrame then 1 else 0) ticks
      (lines + if p.mode = .transfer then 1 else 0)
      (vblanks + p.takeDots.nextMode.vblank.toNat) := by
  let t := p.takeDots.nextMode
  have hb : t.ppu.beam = p.beam.next := beam_nextMode h.valid
  have hp : t.ppu.dots = { elapsed := p.dots.elapsed - p.dots.period, period := t.ppu.mode.dots } :=
    dots_nextMode h.period
  have hv : t.vblank = decide p.beam.EndsPicture := vblank_nextMode h.valid
  constructor
  case on     => exact (congrArg (testBit · 7) lcdc_nextMode).trans h.on
  case valid  => exact hb ▸ h.valid.next
  case period => rw [hp]
  case ticks =>
    have hs : p.beam.start + p.dots.period = _ := h.period ▸ p.beam.start_next
    have := hd.right
    rw [h.ticks, hb, hp]
    by_cases he : p.beam.EndsFrame
      <;> simp only [he, if_true, if_false, Nat.mul_add] at hs ⊢
      <;> omega
  case lines =>
    have hs : p.beam.linesDone + (if p.mode = .transfer then 1 else 0) = _ := p.beam.linesDone_next
    rw [h.lines, hb, Nat.add_assoc, hs]
    split <;> simp only [Nat.mul_add] <;> omega
  case vblanks =>
    have hs := p.beam.vblanksDone_next
    have ht : t.vblank.toNat = if p.beam.EndsPicture then 1 else 0 := by
      rw [hv]
      split <;> simp [*]
    rw [h.vblanks, hb, Nat.add_assoc, ht, hs]
    omega

theorem elapsed_lt (h : p.Scheduled frames ticks lines vblanks) (hd : ¬p.dots.Due) :
    p.dots.elapsed < p.beam.mode.dots := by
  have hp : 0 < p.mode.dots := by cases p.mode <;> decide
  exact h.period ▸ Nat.lt_of_not_le fun hl => hd ⟨h.period ▸ hp, hl⟩

-- Once no change of mode is due, the ticks alone tell the state of the schedule.
theorem atTick (h : p.Scheduled frames ticks lines vblanks) (hd : ¬p.dots.Due) :
    p.AtTick (ticks % Clock.ticksPerFrame) := by
  have hl := h.elapsed_lt hd
  have hf := Nat.lt_of_lt_of_le (Nat.add_lt_add_left hl _) (Beam.start_lt h.valid)
  have ht : ticks % Clock.ticksPerFrame = p.beam.start + p.dots.elapsed := by
    rw [h.ticks, Nat.add_assoc, Nat.mul_add_mod, Nat.mod_eq_of_lt hf]
  rw [ht]
  constructor
  case beam => exact (Beam.atTick_start_add h.valid hl).symm
  case dots => simp [← h.period]

-- A line has been handed over if and only if its transfer is over.
theorem lt_lines_iff (h : p.Scheduled frames ticks lines vblanks) (hd : ¬p.dots.Due)
    {frame line : Nat} (hl : line < Clock.visibleLines) :
    Clock.visibleLines * frame + line < lines ↔
      Clock.ticksPerFrame * frame + Clock.ticksPerLine * line + 248 ≤ ticks := by
  have he := h.elapsed_lt hd
  have ⟨_, hv, _, ht, hn, _⟩ := h
  cases hm : p.mode <;>
    simp only [beam, hm, Beam.Valid, Beam.start, Beam.linesDone, Mode.dots, Clock.ticksPerFrame,
      Clock.frameLines, Clock.visibleLines, Clock.ticksPerLine] at hv he ht hn hl ⊢ <;>
    omega

-- A vertical blank has begun if and only if the lines before it are over.
theorem lt_vblanks_iff (h : p.Scheduled frames ticks lines vblanks) (hd : ¬p.dots.Due)
    {frame : Nat} :
    frame < vblanks ↔
      Clock.ticksPerFrame * frame + Clock.ticksPerLine * Clock.visibleLines ≤ ticks := by
  have he := h.elapsed_lt hd
  have ⟨_, hv, _, ht, _, hn⟩ := h
  cases hm : p.mode <;>
    simp [beam, hm, Beam.Valid, Beam.start, Beam.vblanksDone, Mode.dots, Clock.ticksPerFrame,
      Clock.frameLines, Clock.visibleLines, Clock.ticksPerLine] at hv he ht hn ⊢ <;>
    omega

-- The line that is being transferred is the next one of the frame.
theorem lines_mod (h : p.Scheduled frames ticks lines vblanks) (hm : p.mode = .transfer) :
    lines % Clock.visibleLines = p.ly.toNat := by
  have ⟨_, hv, _, _, hl, _⟩ := h
  simp only [beam, hm, Beam.Valid, Beam.linesDone] at hv hl
  rw [hl, Nat.mul_add_mod, Nat.mod_eq_of_lt hv]

end Scheduled
end Ppu

namespace Video

-- What is known of a sink that has been handed some lines goes on to hold with each further one.
-- The lines of a frame are numbered from zero.
def Counts {η : Type} [LineSink η] (Q : η → Nat → Prop) : Prop :=
  ∀ {sink lines}, Q sink lines →
    ∀ pixels, Q (LineSink.draw sink (lines % Clock.visibleLines) pixels).snd (lines + 1)

namespace Run

variable {η : Type} [LineSink η] {Q : η → Nat → Prop} {ticks before : Nat} {s : Run η}

-- A run that follows the schedule, of a unit that had asked for some vertical blanks before it.
def Follows (Q : η → Nat → Prop) (ticks before : Nat) (s : Run η) : Prop :=
  ∃ frames lines, s.ppu.Scheduled frames ticks lines (before + s.vblanks) ∧ Q s.sink lines

omit [LineSink η] in
theorem Follows.valid : s.Follows Q ticks before → s.ppu.beam.Valid
  | ⟨_, _, h, _⟩ => h.valid

theorem change_eq (s : Run η) :
    s.change = { s with
      ppu     := s.ppu.takeDots.nextMode.ppu
      vblanks := s.vblanks + s.ppu.takeDots.nextMode.vblank.toNat
      stats   := s.stats + s.ppu.takeDots.nextMode.stats }.hand s.ppu.takeDots.nextMode.line :=
  rfl

theorem change_ppu : s.change.ppu = s.ppu.takeDots.nextMode.ppu :=
  hand_ppu ..

theorem change_vblanks : s.change.vblanks = s.vblanks + s.ppu.takeDots.nextMode.vblank.toNat := by
  rw [change_eq]
  cases s.ppu.takeDots.nextMode.line <;> rfl

theorem change_sink_of_transfer (h : s.ppu.mode = .transfer) :
    s.change.sink = (LineSink.draw s.sink s.ppu.ly.toNat s.ppu.takeDots.renderLine).snd := by
  have hm : s.ppu.takeDots.mode = .transfer := h
  rw [change_eq, Ppu.line_nextMode, if_pos hm]
  rfl

theorem change_sink_of_not_transfer (h : s.ppu.mode ≠ .transfer) : s.change.sink = s.sink := by
  have hm : s.ppu.takeDots.mode ≠ .transfer := h
  rw [change_eq, Ppu.line_nextMode, if_neg hm]
  rfl

theorem Follows.change (hQ : Counts Q) (h : s.Follows Q ticks before) (hd : s.ppu.dots.Due) :
    s.change.Follows Q ticks before := by
  have ⟨frames, lines, h, hq⟩ := h
  have hn := h.nextMode hd
  rw [Nat.add_assoc, ← change_vblanks, ← change_ppu] at hn
  refine ⟨_, _, hn, ?_⟩
  by_cases hm : s.ppu.mode = .transfer
  case pos =>
    rw [change_sink_of_transfer hm, if_pos hm, ← h.lines_mod hm]
    exact hQ hq _
  case neg =>
    rw [change_sink_of_not_transfer hm, if_neg hm]
    exact hq

theorem Follows.settle (hQ : Counts Q) (h : s.Follows Q ticks before) :
    s.settle.Follows Q ticks before := by
  induction s using Run.settle.induct
  case case1 s hd _ hi => exact settle_of_due hd ▸ hi (h.change hQ hd)
  case case2 s hd      => exact (settle_of_not_due hd).symm ▸ h

theorem settle_not_due (s : Run η) : ¬s.settle.ppu.dots.Due := by
  induction s using Run.settle.induct
  case case1 s hd _ hi => exact settle_of_due hd ▸ hi
  case case2 s hd      => exact (settle_of_not_due hd).symm ▸ hd

-- Time goes on in the schedule alone.
theorem settle_kept (s : Run η) :
    ∃ ly wly mode dots, s.settle.ppu = { s.ppu with ly, wly, mode, dots } := by
  induction s using settle.induct
  case case1 s hd _ hi =>
    obtain ⟨_, _, _, _, hi⟩ := hi
    obtain ⟨_, _, _, _, hn⟩ := s.ppu.takeDots.nextMode_kept
    rw [settle_of_due hd, hi, change_ppu, hn]
    exact ⟨_, _, _, _, rfl⟩
  case case2 s hd =>
    rw [settle_of_not_due hd]
    exact ⟨_, _, _, _, rfl⟩

end Run
end Video

namespace Ppu

theorem advance_kept {η : Type} [LineSink η] (p : Ppu) (ticks : Nat) (sink : η) :
    ∃ ly wly mode dots, (p.advance ticks sink).ppu = { p with ly, wly, mode, dots } := by
  rw [advance]
  split
  case isTrue =>
    obtain ⟨_, _, _, _, h⟩ :=
      Run.settle_kept { ppu := { p with dots := p.dots.accrue ticks }, sink }
    exact ⟨_, _, _, _, h⟩
  case isFalse => exact ⟨_, _, _, _, rfl⟩

-- The unit has been on for some ticks, in which it has handed over some lines and asked for some
-- vertical blanks.
def OnSchedule (p : Ppu) (ticks lines vblanks : Nat) : Prop :=
  ¬p.dots.Due ∧ ∃ frames, p.Scheduled frames ticks lines vblanks

namespace OnSchedule

variable {p : Ppu} {ticks lines vblanks : Nat}

-- Of a unit that is just switched on.
theorem start (hon : p.lcdEnabled) (hl : p.ly = 0) (hm : p.mode = .oamScan)
    (hd : p.dots = .ofPeriod (Mode.dots .oamScan)) : p.OnSchedule 0 0 0 := by
  have hb : p.beam = ⟨.oamScan, 0⟩ := by simp [beam, hm, hl]
  refine ⟨by rw [hd]; decide, 0, hon, ?_, ?_, ?_, ?_, ?_⟩
  case refine_1 => exact hb ▸ Nat.zero_lt_succ _
  case refine_2 => rw [hd, hm]; rfl
  case refine_3 => rw [hd, hb]; rfl
  case refine_4 => rw [hb]; rfl
  case refine_5 => rw [hb]; rfl

theorem postBoot : Ppu.postBoot.OnSchedule 0 0 0 :=
  start (by decide) rfl rfl rfl

theorem advance {η : Type} [LineSink η] {Q : η → Nat → Prop} (hQ : Counts Q)
    (h : p.OnSchedule ticks lines vblanks) {sink : η} (hq : Q sink lines) (n : Nat) :
    let r := p.advance n sink
    ∃ lines', r.ppu.OnSchedule (ticks + n) lines' (vblanks + r.vblanks) ∧ Q r.sink lines' := by
  have ⟨_, frames, h⟩ := h
  simp only [Ppu.advance, h.on, if_true]
  have hf : Run.Follows Q (ticks + n) vblanks { ppu := { p with dots := p.dots.accrue n }, sink } :=
    ⟨frames, lines, h.accrue n, hq⟩
  have ⟨frames', lines', h', hq'⟩ := hf.settle hQ
  exact ⟨lines', ⟨Run.settle_not_due _, frames', h'⟩, hq'⟩

-- Before the first transfer of a frame is over, its number tells what has been done.
theorem frame_start {frame rest : Nat} (h : p.OnSchedule ticks lines vblanks)
    (ht : ticks = Clock.ticksPerFrame * frame + rest) (hr : rest < 80) :
    p.ly = 0 ∧ p.mode = .oamScan ∧ lines = Clock.visibleLines * frame ∧ vblanks = frame := by
  have ⟨hd, frames, h⟩ := h
  have he := h.elapsed_lt hd
  have ⟨_, hv, _, ht', hl, hn⟩ := h
  cases hm : p.mode <;>
    simp [beam, hm, Beam.Valid, Beam.start, Beam.linesDone, Beam.vblanksDone, Mode.dots,
      Clock.ticksPerFrame, Clock.frameLines, Clock.visibleLines, Clock.ticksPerLine,
      ← UInt8.toNat_inj] at hv he ht ht' hl hn ⊢ <;>
    omega

theorem congr {q : Ppu} (h : p.OnSchedule ticks lines vblanks) (hon : q.lcdEnabled)
    (hb : q.beam = p.beam) (hd : q.dots = p.dots) : q.OnSchedule ticks lines vblanks := by
  have ⟨hn, frames, h⟩ := h
  exact ⟨hd ▸ hn, frames, h.congr hon hb hd⟩

theorem on (h : p.OnSchedule ticks lines vblanks) : p.lcdEnabled := by
  have ⟨_, _, h⟩ := h
  exact h.on

end OnSchedule

-- Nothing goes on in a unit that is off.
structure Stopped (p : Ppu) : Prop where
  off  : p.lcdEnabled = false
  ly   : p.ly = 0
  mode : p.mode = .hblank

theorem Stopped.congr {p q : Ppu} (h : p.Stopped) (hoff : q.lcdEnabled = false)
    (hb : q.beam = p.beam) : q.Stopped where
  off  := hoff
  ly   := UInt8.toNat_inj.mp <| (congrArg Beam.line hb).trans (congrArg UInt8.toNat h.ly)
  mode := (congrArg Beam.mode hb).trans h.mode

theorem Stopped.advance {η : Type} [LineSink η] {p : Ppu} (h : p.Stopped) (n : Nat) (sink : η) :
    p.advance n sink = { ppu := p, sink } := by
  simp [Ppu.advance, h.off]

-- What a register write may do to the schedule.
inductive Written (p q : Ppu) : Prop
  | kept    (on : q.lcdEnabled = p.lcdEnabled) (beam : q.beam = p.beam) (dots : q.dots = p.dots)
  | stopped (on : p.lcdEnabled) (off : q.Stopped)
  | started (off : p.lcdEnabled = false) (on : q.lcdEnabled) (ly : q.ly = p.ly)
    (mode : q.mode = .oamScan) (dots : q.dots = .ofPeriod (Mode.dots .oamScan))

theorem setLcdc_written (p : Ppu) (v : UInt8) : p.Written (p.setLcdc v) := by
  cases hp : testBit p.lcdc 7 <;> cases hv : testBit v 7
  case false.true => apply Written.started <;> simp [setLcdc, lcdEnabled, hp, hv]
  case true.false =>
    apply Written.stopped hp
    constructor <;> simp [setLcdc, lcdEnabled, hp, hv]
  all_goals apply Written.kept <;> simp [setLcdc, lcdEnabled, hp, hv, beam]

theorem writeRegister_written (p : Ppu) (r : Video.Register) (v : UInt8) :
    p.Written (p.writeRegister r v) := by
  cases r
  case lcdc => exact p.setLcdc_written v
  all_goals exact .kept rfl rfl rfl

theorem write_written (p : Ppu) (low v : UInt8) : p.Written (p.write low v) := by
  simp only [write]
  split
  case h_1 => exact p.writeRegister_written ..
  case h_2 => exact .kept rfl rfl rfl

end Ppu
end DotMatrix
