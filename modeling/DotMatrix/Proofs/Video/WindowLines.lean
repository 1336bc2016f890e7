import Mathlib.Data.List.DropRight
import DotMatrix.Proofs.Host.Alike
import DotMatrix.Proofs.Video.Showing

namespace DotMatrix

open Video

namespace Ppu

variable {p : Ppu}

-- The current line has a part of the window on it.
def ShowsWindow (p : Ppu) : Prop :=
  testBit p.lcdc 0 ∧ testBit p.lcdc 5 ∧ p.wy ≤ p.ly ∧ p.wx.toNat < 167

instance (p : Ppu) : Decidable p.ShowsWindow := inferInstanceAs (Decidable (_ ∧ _))

theorem windowVisible_iff : p.windowVisible ↔ p.ShowsWindow := by
  simp only [windowVisible, Bool.and_eq_true, decide_eq_true_iff, and_assoc]
  rfl

-- A line that shows the window shows the row that is counted, wherever the window begins.
theorem backgroundIndex_of_showsWindow (h : p.ShowsWindow) {column : Nat}
    (hc : p.wx.toNat ≤ column + 7) : p.backgroundIndex column =
      p.tilePixel p.windowMapHigh (.ofNat (column + 7 - p.wx.toNat)) p.wly := by
  have hb : p.bgEnabled := h.1
  simp [backgroundIndex, hb, windowVisible_iff.mpr h, hc]

end Ppu

namespace Video

-- What there is to tell of the lines of the window.
inductive DrawEvent
  -- A line is drawn, by a unit in some state.
  | line (p : Ppu)
  -- The current line wraps to the first one.
  | wrap
  -- The screen is switched on.
  | enable

namespace DrawEvent

variable {es : List DrawEvent} {p : Ppu}

def isLine : DrawEvent → Bool
  | line _        => true
  | wrap | enable => false

def showsWindow : DrawEvent → Bool
  | line p        => p.ShowsWindow
  | wrap | enable => false

-- A drawn line as it is handed over.
def line? : DrawEvent → Option (Nat × Scanline)
  | line p        => some (p.ly.toNat, p.renderLine)
  | wrap | enable => none

-- The lines since the last event of another kind.
def linesSince (es : List DrawEvent) : List DrawEvent := es.rtakeWhile isLine

-- Those of them that show the window.
def windowLines (es : List DrawEvent) : Nat := (linesSince es).countP showsWindow

theorem linesSince_line (es : List DrawEvent) (p : Ppu) :
    linesSince (es ++ [line p]) = linesSince es ++ [line p] :=
  List.rtakeWhile_concat_pos _ _ _ rfl

theorem windowLines_line (es : List DrawEvent) (p : Ppu) :
    windowLines (es ++ [line p]) = windowLines es + if p.ShowsWindow then 1 else 0 := by
  have hs : showsWindow (line p) = decide p.ShowsWindow := rfl
  rw [windowLines, linesSince_line, List.countP_append, List.countP_singleton, hs]
  simp only [decide_eq_true_eq]
  rfl

-- A line on which the window is switched off is passed over.
example :
    windowLines [wrap, line { lcdc := 0xb1 }, line { lcdc := 0x91 }, line { lcdc := 0xb1 }] = 2 := by
  decide

theorem linesSince_of_not_isLine {e : DrawEvent} (h : e.isLine = false) :
    linesSince (es ++ [e]) = [] :=
  List.rtakeWhile_concat_neg _ _ _ (Bool.eq_false_iff.mp h)

theorem windowLines_le (es : List DrawEvent) : windowLines es ≤ (linesSince es).length :=
  List.countP_le_length

-- Of each line among the events, the unit has counted those before it.
def Told (es : List DrawEvent) : Prop :=
  ∀ before p after, es = before ++ line p :: after →
    p.wly.toNat = windowLines before ∧ p.wly ≤ p.ly ∧ p.ly.toNat < Clock.visibleLines

theorem Told.concat (h : Told es) {e : DrawEvent}
    (he : ∀ p, e = line p →
      p.wly.toNat = windowLines es ∧ p.wly ≤ p.ly ∧ p.ly.toNat < Clock.visibleLines) :
    Told (es ++ [e]) := by
  intro before p after hs
  obtain rfl | ⟨after, _, rfl⟩ := after.eq_nil_or_concat'
  case inl =>
    obtain ⟨rfl, hl⟩ := List.append_inj' hs rfl
    exact he p (List.singleton_inj.mp hl)
  case inr =>
    rw [← List.cons_append, ← List.append_assoc] at hs
    exact h before p after (List.append_inj_left' hs rfl)

theorem Told.concat_of_not_isLine (h : Told es) {e : DrawEvent} (he : e.isLine = false) :
    Told (es ++ [e]) := by
  refine h.concat fun p hp => ?_
  rw [hp] at he
  contradiction

end DrawEvent
end Video

-- The lines go on one after the other, but at the end of a frame.
theorem Video.Beam.line_next_lt_iff (b : Beam) : b.next.line < b.line ↔ b.EndsFrame := by
  obtain ⟨mode, line⟩ := b
  cases mode
  case vblank =>
    by_cases he : line + 1 = Clock.frameLines
    case pos =>
      obtain rfl : line = 153 := Nat.succ.inj he
      decide
    case neg => simp [Beam.next, Beam.EndsFrame, he]
  all_goals simp [Beam.next, Beam.EndsFrame]

theorem Video.Beam.linesDone_le {b : Beam} (h : b.Valid) : b.linesDone ≤ Clock.visibleLines := by
  obtain ⟨mode, line⟩ := b
  cases mode
  case vblank  => exact Nat.le_refl _
  case hblank  => exact h
  all_goals exact Nat.le_of_lt h

namespace Ppu

open DrawEvent (linesSince windowLines Told)

variable {p : Ppu} {es : List DrawEvent}

-- What a change of mode has drawn, or whether the line has wrapped in it.
def changeEvents (p : Ppu) : List DrawEvent :=
  let t := p.takeDots.nextMode
  if t.line.isSome then [.line p.takeDots] else if t.ppu.ly < p.ly then [.wrap] else []

-- What a unit that is on has drawn when no change of mode is due any more.
def settleEvents (p : Ppu) : List DrawEvent :=
  if h : p.dots.Due then
    have : p.takeDots.nextMode.ppu.dots.elapsed < p.dots.elapsed :=
      p.takeDots.nextMode_elapsed ▸ h.take_elapsed_lt
    p.changeEvents ++ p.takeDots.nextMode.ppu.settleEvents
  else
    []
termination_by p.dots.elapsed

def advanceEvents (p : Ppu) (ticks : Nat) : List DrawEvent :=
  if p.lcdEnabled then { p with dots := p.dots.accrue ticks }.settleEvents else []

theorem settleEvents_of_due (h : p.dots.Due) :
    p.settleEvents = p.changeEvents ++ p.takeDots.nextMode.ppu.settleEvents := by
  rw [settleEvents, dif_pos h]

theorem settleEvents_of_not_due (h : ¬p.dots.Due) : p.settleEvents = [] := by
  rw [settleEvents, dif_neg h]

theorem changeEvents_eq (h : p.beam.Valid) : p.changeEvents =
    if p.mode = .transfer then [.line p.takeDots]
    else if p.beam.EndsFrame then [.wrap] else [] := by
  have hl : p.takeDots.nextMode.line =
      if p.mode = .transfer then some (p.ly.toNat, p.takeDots.renderLine) else none :=
    p.takeDots.line_nextMode
  have hn : p.takeDots.nextMode.ppu.ly < p.ly ↔ p.beam.EndsFrame := by
    have hb : p.takeDots.nextMode.ppu.beam = p.beam.next := p.takeDots.beam_nextMode h
    rw [← Beam.line_next_lt_iff, ← hb]
    exact UInt8.lt_iff_toNat_lt
  simp only [changeEvents, hl, hn]
  split <;> rfl

theorem wly_nextMode (p : Ppu) : p.nextMode.ppu.wly =
    if p.mode = .transfer then p.wly + (if p.ShowsWindow then 1 else 0)
    else if p.beam.EndsFrame then 0 else p.wly := by
  cases hm : p.mode
  case oamScan | hblank => simp [nextMode, hm, enter, goToLine, beam, Beam.EndsFrame]
  case transfer =>
    simp only [nextMode, hm, enter, countWindowLine, windowVisible_iff, if_true]
    split <;> simp
  case vblank =>
    simp only [nextMode, hm, beam, Beam.EndsFrame, true_and]
    split <;> simp [enter, goToLine, *]

-- The window lines of a unit that is on are counted, from the start of the frame or from when it
-- was switched on.
structure CountsWindow (p : Ppu) (es : List DrawEvent) : Prop where
  valid  : p.beam.Valid
  period : p.dots.period = p.mode.dots
  lines  : (linesSince es).length = p.beam.linesDone
  window : p.wly.toNat = windowLines es
  told   : Told es

namespace CountsWindow

theorem congr {q : Ppu} (h : p.CountsWindow es) (hb : q.beam = p.beam)
    (hd : q.dots.period = p.dots.period) (hw : q.wly = p.wly) : q.CountsWindow es where
  valid  := hb ▸ h.valid
  period := hd ▸ h.period.trans (congrArg (Beam.mode · |>.dots) hb.symm)
  lines  := hb ▸ h.lines
  window := hw ▸ h.window
  told   := h.told

-- At the start of a frame nothing is counted.
theorem start (hb : p.beam = ⟨.oamScan, 0⟩) (hp : p.dots.period = p.mode.dots) (hw : p.wly = 0)
    (hs : linesSince es = []) (ht : Told es) : p.CountsWindow es := by
  refine ⟨hb ▸ Nat.zero_lt_succ _, hp, ?_, ?_, ht⟩
  case refine_1 => rw [hs, hb]; rfl
  case refine_2 => rw [windowLines, hs, hw]; rfl

theorem wly_le (h : p.CountsWindow es) : p.wly.toNat ≤ p.beam.linesDone :=
  h.window ▸ h.lines ▸ DrawEvent.windowLines_le es

theorem beam_change (h : p.CountsWindow es) : p.takeDots.nextMode.ppu.beam = p.beam.next :=
  beam_nextMode h.valid

theorem period_change (h : p.CountsWindow es) :
    p.takeDots.nextMode.ppu.dots.period = p.takeDots.nextMode.ppu.mode.dots := by
  have hd : p.takeDots.nextMode.ppu.dots =
      p.takeDots.dots.rearm p.takeDots.nextMode.ppu.mode.dots := dots_nextMode h.period
  rw [hd]
  rfl

-- A line adds one to the count if it shows the window. There are too few lines for an overflow.
theorem line (h : p.CountsWindow es) (hm : p.mode = .transfer) :
    p.takeDots.nextMode.ppu.CountsWindow (es ++ [.line p.takeDots]) := by
  have hb := h.beam_change
  have hw : p.takeDots.nextMode.ppu.wly = p.wly + if p.takeDots.ShowsWindow then 1 else 0 :=
    p.takeDots.wly_nextMode.trans (if_pos hm)
  have hd : p.beam.linesDone = p.ly.toNat := by simp [beam, hm, Beam.linesDone]
  have hn : p.beam.next.linesDone = p.ly.toNat + 1 := by
    simp [beam, hm, Beam.next, Beam.linesDone]
  have hy : p.ly.toNat < Clock.visibleLines := by simpa [beam, hm, Beam.Valid] using h.valid
  have hle : p.wly.toNat ≤ p.ly.toNat := hd ▸ h.wly_le
  refine ⟨hb ▸ h.valid.next, h.period_change, ?_, ?_, h.told.concat fun q hq => ?_⟩
  case refine_1 =>
    rw [DrawEvent.linesSince_line, List.length_append, h.lines, hb, hd, hn]
    rfl
  case refine_2 =>
    rw [DrawEvent.windowLines_line, ← h.window, hw]
    split
    case isTrue =>
      rw [UInt8.toNat_add]
      exact Nat.mod_eq_of_lt (Nat.lt_of_le_of_lt (Nat.succ_le_succ hle)
        (Nat.lt_trans (Nat.succ_lt_succ hy) (by decide)))
    case isFalse => simp
  case refine_3 =>
    cases hq
    exact ⟨h.window, UInt8.le_iff_toNat_le.mpr hle, hy⟩

theorem wrap (h : p.CountsWindow es) (he : p.beam.EndsFrame) :
    p.takeDots.nextMode.ppu.CountsWindow (es ++ [.wrap]) := by
  have hv : p.mode = .vblank := he.left
  have hm : p.mode ≠ .transfer := by
    rw [hv]
    decide
  have hb : p.beam.next = ⟨.oamScan, 0⟩ := by simp [Beam.next, he.left, he]
  have hw : p.takeDots.nextMode.ppu.wly = 0 :=
    p.takeDots.wly_nextMode.trans ((if_neg hm).trans (if_pos he))
  exact start (h.beam_change.trans hb) h.period_change hw
    (DrawEvent.linesSince_of_not_isLine rfl) (h.told.concat_of_not_isLine rfl)

-- Any other change of mode has nothing to do with the lines.
theorem pass (h : p.CountsWindow es) (hm : p.mode ≠ .transfer) (he : ¬p.beam.EndsFrame) :
    p.takeDots.nextMode.ppu.CountsWindow es := by
  have hb := h.beam_change
  have hw : p.takeDots.nextMode.ppu.wly = p.wly :=
    p.takeDots.wly_nextMode.trans ((if_neg hm).trans (if_neg he))
  have hl : p.beam.linesDone = p.beam.next.linesDone := by
    have hn := p.beam.linesDone_next
    rw [if_neg (show p.beam.mode ≠ .transfer from hm), if_neg he] at hn
    exact hn
  exact ⟨hb ▸ h.valid.next, h.period_change, hb ▸ hl ▸ h.lines, hw ▸ h.window, h.told⟩

theorem change (h : p.CountsWindow es) :
    p.takeDots.nextMode.ppu.CountsWindow (es ++ p.changeEvents) := by
  rw [changeEvents_eq h.valid]
  by_cases hm : p.mode = .transfer
  case pos =>
    rw [if_pos hm]
    exact h.line hm
  case neg =>
    rw [if_neg hm]
    by_cases he : p.beam.EndsFrame
    case pos =>
      rw [if_pos he]
      exact h.wrap he
    case neg =>
      rw [if_neg he, List.append_nil]
      exact h.pass hm he

end CountsWindow

theorem line?_changeEvents (p : Ppu) :
    p.changeEvents.filterMap DrawEvent.line? = p.takeDots.nextMode.line.toList := by
  have hl : p.takeDots.nextMode.line =
      if p.mode = .transfer then some (p.ly.toNat, p.takeDots.renderLine) else none :=
    p.takeDots.line_nextMode
  rw [changeEvents, hl]
  by_cases hm : p.mode = .transfer
  case pos =>
    simp only [hm, if_true, Option.isSome_some]
    rfl
  case neg =>
    simp only [hm, if_false, Option.isSome_none, Bool.false_eq_true]
    split <;> rfl

-- Of all writes only the one that switches the screen off clears the count.
theorem wly_write (p : Ppu) (low v : UInt8) : (p.write low v).wly =
    if p.lcdEnabled && !(p.write low v).lcdEnabled then 0 else p.wly := by
  have hk : p.wly = if p.lcdEnabled && !p.lcdEnabled then 0 else p.wly := by
    rw [Bool.and_not_self]
    rfl
  cases hr : Video.Register.ofLow? low
  case none =>
    simp only [write, hr]
    exact hk
  case some r =>
    simp only [write, hr]
    cases r
    case lcdc =>
      cases hp : testBit p.lcdc 7 <;> cases hv : testBit v 7 <;>
        simp [writeRegister, setLcdc, lcdEnabled, hp, hv]
    all_goals exact hk

end Ppu

namespace Video.Run

variable {η : Type} [LineSink η]

theorem lines_change (s : Run (Watched η)) :
    s.change.sink.lines = s.sink.lines ++ s.ppu.changeEvents.filterMap DrawEvent.line? := by
  rw [Ppu.line?_changeEvents, change_eq]
  cases s.ppu.takeDots.nextMode.line
  case none   => exact (List.append_nil _).symm
  case some l => exact s.sink.lines_draw l.1 l.2

theorem lines_settle (s : Run (Watched η)) :
    s.settle.sink.lines = s.sink.lines ++ s.ppu.settleEvents.filterMap DrawEvent.line? := by
  induction s using settle.induct
  case case1 s hd _ hi =>
    rw [settle_of_due hd, hi, lines_change, change_ppu, Ppu.settleEvents_of_due hd,
      List.filterMap_append, List.append_assoc]
  case case2 s hd =>
    rw [settle_of_not_due hd, Ppu.settleEvents_of_not_due hd, List.filterMap_nil, List.append_nil]

theorem countsWindow_settle {s : Run η} {es : List DrawEvent} (h : s.ppu.CountsWindow es) :
    s.settle.ppu.CountsWindow (es ++ s.ppu.settleEvents) := by
  induction s using settle.induct generalizing es
  case case1 s hd _ hi =>
    rw [settle_of_due hd, Ppu.settleEvents_of_due hd, ← List.append_assoc, ← change_ppu]
    exact hi (s.change_ppu ▸ h.change)
  case case2 s hd =>
    rw [settle_of_not_due hd, Ppu.settleEvents_of_not_due hd, List.append_nil]
    exact h

end Video.Run

namespace Video

-- The unit and the screen that it draws to, with what there is to tell of its lines.
structure Drawing (η : Type) where
  ppu    : Ppu := .postBoot
  screen : Watched η
  events : List DrawEvent := []

namespace Drawing

variable {η : Type} [LineSink η] {s : Drawing η}

def access (s : Drawing η) : Access → Drawing η
  | .register low v =>
    let ppu := s.ppu.write low v
    let events := if !s.ppu.lcdEnabled && ppu.lcdEnabled then s.events ++ [.enable] else s.events
    { s with ppu, events }
  | .vram a v    => { s with ppu := s.ppu.writeVram a v }
  | .oam i v     => { s with ppu := s.ppu.writeOam i v }
  | .copyOam oam => { s with ppu.oam := oam }
  | .advance n   =>
    let r := s.ppu.advance n s.screen
    { ppu := r.ppu, screen := r.sink, events := s.events ++ s.ppu.advanceEvents n }

def accesses (s : Drawing η) (as : List Access) : Drawing η := as.foldl access s

-- What holds at all times.
inductive Counting (s : Drawing η) : Prop
  | on (on : s.ppu.lcdEnabled) (counts : s.ppu.CountsWindow s.events)
  | off (stopped : s.ppu.Stopped) (wly : s.ppu.wly = 0) (told : DrawEvent.Told s.events)

omit [LineSink η] in
theorem Counting.told (h : s.Counting) : DrawEvent.Told s.events := by
  cases h
  case on hc   => exact hc.told
  case off ht => exact ht

omit [LineSink η] in
theorem Counting.wly (h : s.Counting) :
    (s.ppu.lcdEnabled → s.ppu.wly.toNat = DrawEvent.windowLines s.events) ∧
    (¬s.ppu.lcdEnabled → s.ppu.wly = 0) ∧ s.ppu.wly.toNat ≤ Clock.visibleLines := by
  cases h
  case on h hc =>
    exact ⟨fun _ => hc.window, (absurd h ·), Nat.le_trans hc.wly_le (Beam.linesDone_le hc.valid)⟩
  case off hs hz _ =>
    exact ⟨fun h => by simp [hs.off] at h, fun _ => hz, hz ▸ Nat.zero_le _⟩

theorem Counting.register (h : s.Counting) (low v : UInt8) :
    (s.access (.register low v)).Counting := by
  have hw := s.ppu.wly_write low v
  rw [Drawing.access]
  cases s.ppu.write_written low v
  case kept hon hb hd =>
    simp only [hon, Bool.not_and_self, Bool.and_not_self, Bool.false_eq_true, if_false] at hw ⊢
    cases h
    case on h hc      => exact .on (hon ▸ h) (hc.congr hb (congrArg _ hd) hw)
    case off hs hz ht => exact .off (hs.congr (hon ▸ hs.off) hb) (hw.trans hz) ht
  case stopped hon hoff =>
    simp only [hon, hoff.off, Bool.not_false, Bool.not_true, Bool.and_true, Bool.and_false,
      Bool.false_eq_true, if_true, if_false] at hw ⊢
    exact .off hoff hw h.told
  case started hoff hon hl hm hd =>
    simp only [hon, hoff, Bool.not_false, Bool.not_true, Bool.and_true, Bool.and_false,
      Bool.false_eq_true, if_true, if_false] at hw ⊢
    cases h
    case on h _ => simp [h] at hoff
    case off hs hz ht =>
      have hb : (s.ppu.write low v).beam = ⟨.oamScan, 0⟩ := by simp [Ppu.beam, hm, hl, hs.ly]
      exact .on hon (.start hb (by rw [hd, hm]; rfl) (hw.trans hz)
        (DrawEvent.linesSince_of_not_isLine rfl) (ht.concat_of_not_isLine rfl))

theorem Counting.access (h : s.Counting) (a : Access) : (s.access a).Counting := by
  cases a
  case register low v => exact h.register low v
  case vram | oam | copyOam =>
    cases h
    case on h hc      => exact .on h (hc.congr rfl rfl rfl)
    case off hs hz ht => exact .off (hs.congr hs.off rfl) hz ht
  case advance n =>
    cases h
    case on h hc =>
      obtain ⟨_, _, _, _, hk⟩ := s.ppu.advance_kept n s.screen
      refine .on ((congrArg Ppu.lcdEnabled hk).trans h) ?_
      simp only [Drawing.access, Ppu.advance, Ppu.advanceEvents, h, if_true]
      exact Run.countsWindow_settle (hc.congr rfl rfl rfl)
    case off hs hz ht =>
      simp only [Drawing.access, hs.advance, Ppu.advanceEvents, hs.off, Bool.false_eq_true,
        if_false, List.append_nil]
      exact .off hs hz ht

theorem Counting.accesses (h : s.Counting) (as : List Access) : (s.accesses as).Counting := by
  induction as generalizing s
  case nil          => exact h
  case cons a as hi => exact hi (h.access a)

omit [LineSink η] in
theorem counting_start (screen : η) : Counting { screen := .of screen } := by
  have ht : DrawEvent.Told [] := fun before _ _ h => by cases before <;> cases h
  have hon : Ppu.postBoot.lcdEnabled := by decide
  exact .on hon (.start rfl rfl rfl rfl ht)

-- The screen is handed the lines that are told of, whether or not it takes them.
theorem lines_access (h : s.screen.lines = s.events.filterMap DrawEvent.line?) (a : Access) :
    (s.access a).screen.lines = (s.access a).events.filterMap DrawEvent.line? := by
  cases a
  case register low v =>
    simp only [access]
    split
    case isTrue =>
      rw [List.filterMap_append, ← h]
      exact (List.append_nil _).symm
    case isFalse => exact h
  case vram | oam | copyOam => exact h
  case advance n =>
    simp only [access, Ppu.advance, Ppu.advanceEvents, List.filterMap_append, ← h]
    split
    case isTrue  => exact Run.lines_settle _
    case isFalse => simp

theorem lines_accesses (h : s.screen.lines = s.events.filterMap DrawEvent.line?)
    (as : List Access) :
    (s.accesses as).screen.lines = (s.accesses as).events.filterMap DrawEvent.line? := by
  induction as generalizing s
  case nil          => exact h
  case cons a as hi => exact hi (lines_access h a)

-- What a screen refuses is drawn and counted all the same.
theorem access_alike {θ : Type} [LineSink θ] {t : Drawing θ} (hp : t.ppu = s.ppu)
    (he : t.events = s.events) (a : Access) :
    (t.access a).ppu = (s.access a).ppu ∧ (t.access a).events = (s.access a).events := by
  cases a
  case register | vram | oam | copyOam =>
    simp only [access, hp, he]
    exact ⟨trivial, trivial⟩
  case advance n =>
    have ha := s.ppu.advance_alike (R := fun _ _ => True) (fun _ _ _ => trivial) trivial n
      (x := t.screen) (y := s.screen)
    simp only [access, hp, he, ha.ppu]
    exact ⟨trivial, trivial⟩

theorem accesses_alike {θ : Type} [LineSink θ] {t : Drawing θ} (hp : t.ppu = s.ppu)
    (he : t.events = s.events) (as : List Access) :
    (t.accesses as).ppu = (s.accesses as).ppu ∧
      (t.accesses as).events = (s.accesses as).events := by
  induction as generalizing s t
  case nil          => exact ⟨hp, he⟩
  case cons a as hi =>
    obtain ⟨hp, he⟩ := access_alike hp he a
    exact hi hp he

-- While the screen is on, the count is that of the lines with a part of the window on them, of all
-- that were handed over since the frame has begun or the screen was switched on, refused ones among
-- them. So the window goes on where it has stopped, whatever is written to the registers meanwhile.
theorem window_lines_are_counted (screen : η) (as : List Access) :
    let s := accesses { screen := .of screen } as
    (s.ppu.lcdEnabled → s.ppu.wly.toNat = DrawEvent.windowLines s.events) ∧
    (¬s.ppu.lcdEnabled → s.ppu.wly = 0) ∧
    s.ppu.wly.toNat ≤ Clock.visibleLines ∧
    s.screen.lines = s.events.filterMap DrawEvent.line? ∧
    (∀ {θ : Type} [LineSink θ] (other : θ),
      let t := accesses { screen := .of other } as
      t.ppu = s.ppu ∧ t.events = s.events) ∧
    ∀ before p after, s.events = before ++ .line p :: after →
      p.wly.toNat = DrawEvent.windowLines before ∧
      p.wly ≤ p.ly ∧ p.ly.toNat < Clock.visibleLines ∧
      (p.ShowsWindow → ∀ column, p.wx.toNat ≤ column + 7 → p.backgroundIndex column =
        p.tilePixel p.windowMapHigh (.ofNat (column + 7 - p.wx.toNat))
          (.ofNat (DrawEvent.windowLines before))) := by
  intro s
  have h : s.Counting := (counting_start screen).accesses as
  obtain ⟨hon, hoff, hle⟩ := h.wly
  refine ⟨hon, hoff, hle, lines_accesses rfl as, ?_, fun before p after he => ?_⟩
  case refine_1 =>
    intro θ _ other
    exact accesses_alike (s := { screen := .of screen }) (t := { screen := .of other }) rfl rfl as
  obtain ⟨hw, hle, hy⟩ := h.told before p after he
  refine ⟨hw, hle, hy, fun hs column hc => ?_⟩
  rw [← hw, UInt8.ofNat_toNat]
  exact Ppu.backgroundIndex_of_showsWindow hs hc

end Drawing
end Video
end DotMatrix
