import DotMatrix.Proofs.Host.Refusals
import DotMatrix.Proofs.Video.Raster
import Mathlib.Algebra.Ring.Nat
import Mathlib.Order.Interval.Finset.Nat

namespace DotMatrix

open Video
open scoped Finset

namespace Video

-- The ticks of a frame at which there is something to ask for: the blank after each visible line,
-- the blank after the last of them, the search for objects on each, and the line compared with.

def BeginsHblank (t : Nat) : Prop :=
  ∃ line < Clock.visibleLines, t = Clock.ticksPerLine * line + 248

def BeginsVblank (t : Nat) : Prop := t = Clock.ticksPerLine * Clock.visibleLines

def BeginsScan (t : Nat) : Prop := ∃ line < Clock.visibleLines, t = Clock.ticksPerLine * line

def BeginsLine (ly : UInt8) (t : Nat) : Prop :=
  ly.toNat < Clock.frameLines ∧ t = Clock.ticksPerLine * ly.toNat

instance : DecidablePred BeginsHblank := fun _ => inferInstanceAs (Decidable (∃ _ < _, _))

instance : DecidablePred BeginsVblank := fun _ => inferInstanceAs (Decidable (_ = _))

instance : DecidablePred BeginsScan := fun _ => inferInstanceAs (Decidable (∃ _ < _, _))

instance (ly : UInt8) : DecidablePred (BeginsLine ly) :=
  fun _ => inferInstanceAs (Decidable (_ ∧ _))

-- How often some ticks of the frame come within the first ticks, if a source for them is on.
def occasions (on : Bool) (P : Nat → Prop) [DecidablePred P] (ticks : Nat) : Nat :=
  if on then #{t ∈ Finset.Ioc 0 ticks | P (t % Clock.ticksPerFrame)} else 0

-- What the sources that are on in the status register ask for within the first ticks. Several of
-- them may do so at once.
def statOccasions (stat lyc : UInt8) (ticks : Nat) : Nat :=
  occasions (testBit stat 3) BeginsHblank ticks +
  occasions (testBit stat 4) BeginsVblank ticks +
  occasions (testBit stat 5) BeginsScan ticks +
  occasions (testBit stat 6) (BeginsLine lyc) ticks

-- What they ask for at one tick of a frame.
def statAsked (stat lyc : UInt8) (t : Nat) : Nat :=
  (testBit stat 3 && decide (BeginsHblank t)).toNat +
  (testBit stat 4 && decide (BeginsVblank t)).toNat +
  (testBit stat 5 && decide (BeginsScan t)).toNat +
  (testBit stat 6 && decide (BeginsLine lyc t)).toNat

-- There is nothing to ask for while the beam stays where it is.
def Quiet (P : Nat → Prop) : Prop :=
  ∀ {b : Beam} {elapsed : Nat}, b.Valid → 0 < elapsed → elapsed < b.mode.dots →
    ¬P (b.start + elapsed)

section

variable {b : Beam} {elapsed : Nat}

theorem beginsHblank_iff (hv : b.Valid) (he : elapsed < b.mode.dots) :
    BeginsHblank (b.start + elapsed) ↔ b.mode = .hblank ∧ elapsed = 0 := by
  obtain ⟨mode, line⟩ := b
  cases mode <;>
    simp [BeginsHblank, Beam.Valid, Beam.start, Mode.dots, Clock.ticksPerLine,
      Clock.visibleLines] at hv he ⊢
  case hblank =>
    constructor
    case mp  => rintro ⟨_, _, _⟩; omega
    case mpr => exact fun h => ⟨line, by omega⟩
  all_goals omega

theorem beginsVblank_iff (hv : b.Valid) (he : elapsed < b.mode.dots) :
    BeginsVblank (b.start + elapsed) ↔
      b.mode = .vblank ∧ b.line = Clock.visibleLines ∧ elapsed = 0 := by
  obtain ⟨mode, line⟩ := b
  cases mode <;>
    simp [BeginsVblank, Beam.Valid, Beam.start, Mode.dots, Clock.ticksPerLine,
      Clock.visibleLines] at hv he ⊢ <;>
    omega

theorem beginsScan_iff (hv : b.Valid) (he : elapsed < b.mode.dots) :
    BeginsScan (b.start + elapsed) ↔ b.mode = .oamScan ∧ elapsed = 0 := by
  obtain ⟨mode, line⟩ := b
  cases mode <;>
    simp [BeginsScan, Beam.Valid, Beam.start, Mode.dots, Clock.ticksPerLine,
      Clock.visibleLines] at hv he ⊢
  case oamScan =>
    constructor
    case mp  => rintro ⟨_, _, _⟩; omega
    case mpr => exact fun h => ⟨line, by omega⟩
  all_goals omega

-- A line begins with its scan, or in the blank without one.
theorem beginsLine_iff (ly : UInt8) (hv : b.Valid) (he : elapsed < b.mode.dots) :
    BeginsLine ly (b.start + elapsed) ↔
      (b.mode = .oamScan ∨ b.mode = .vblank) ∧ b.line = ly.toNat ∧ elapsed = 0 := by
  obtain ⟨mode, line⟩ := b
  cases mode <;>
    simp [BeginsLine, Beam.Valid, Beam.start, Mode.dots, Clock.ticksPerLine, Clock.visibleLines,
      Clock.frameLines] at hv he ⊢ <;>
    omega

-- Only the last visible line has the vertical blank after it.
theorem beginsVblank_next (hv : b.Valid) : BeginsVblank b.next.start ↔ b.EndsPicture := by
  obtain ⟨mode, line⟩ := b
  cases mode <;>
    simp only [BeginsVblank, Beam.Valid, Beam.next, Beam.EndsPicture, Beam.EndsFrame, Beam.start,
      Clock.ticksPerLine, Clock.visibleLines, Clock.frameLines] at hv ⊢ <;>
    grind

theorem quiet_beginsHblank : Quiet BeginsHblank := fun hv h0 he h =>
  h0.ne' ((beginsHblank_iff hv he).mp h).right

theorem quiet_beginsVblank : Quiet BeginsVblank := fun hv h0 he h =>
  h0.ne' ((beginsVblank_iff hv he).mp h).right.right

theorem quiet_beginsScan : Quiet BeginsScan := fun hv h0 he h =>
  h0.ne' ((beginsScan_iff hv he).mp h).right

theorem quiet_beginsLine (ly : UInt8) : Quiet (BeginsLine ly) := fun hv h0 he h =>
  h0.ne' ((beginsLine_iff ly hv he).mp h).right.right

end

section

variable {b : Beam} {on : Bool} {P : Nat → Prop} [DecidablePred P]

theorem occasions_add (ticks n : Nat) :
    occasions on P (ticks + n) = occasions on P ticks +
      if on then #{t ∈ Finset.Ioc ticks (ticks + n) | P (t % Clock.ticksPerFrame)} else 0 := by
  cases on
  case false => rfl
  case true =>
    have hu := Finset.Ioc_union_Ioc_eq_Ioc (Nat.zero_le ticks) (Nat.le_add_right ticks n)
    simp only [occasions, if_true, ← hu, Finset.filter_union]
    refine Finset.card_union_of_disjoint ?_
    exact Finset.disjoint_filter_filter (Finset.Ioc_disjoint_Ioc_of_le le_rfl)

-- The ticks of a frame that are no occasions do not count.
theorem occasions_stay (hq : Quiet P) (hv : b.Valid) (frames : Nat) {elapsed : Nat}
    (he : elapsed < b.mode.dots) :
    occasions on P (Clock.ticksPerFrame * frames + b.start + elapsed) =
      occasions on P (Clock.ticksPerFrame * frames + b.start) := by
  have hl := Beam.start_lt hv
  rw [occasions_add, Finset.filter_eq_empty_iff.mpr, Finset.card_empty, ite_self, Nat.add_zero]
  intro t ht
  obtain ⟨h0, h1⟩ := Finset.mem_Ioc.mp ht
  obtain ⟨k, rfl⟩ := Nat.exists_eq_add_of_lt h0
  have hm : (Clock.ticksPerFrame * frames + b.start + k + 1) % Clock.ticksPerFrame =
      b.start + (k + 1) := by
    rw [Nat.add_assoc, Nat.add_assoc, Nat.mul_add_mod, Nat.mod_eq_of_lt (by omega)]
  rw [hm]
  exact hq hv k.succ_pos (by omega)

-- Where the beam goes next, it may get to an occasion.
theorem occasions_next (hq : Quiet P) (hv : b.Valid) (frames : Nat) :
    occasions on P (Clock.ticksPerFrame * frames + b.start + b.mode.dots) =
      occasions on P (Clock.ticksPerFrame * frames + b.start) +
        (on && decide (P b.next.start)).toNat := by
  have hn : b.next.start < Clock.ticksPerFrame := by
    have hl := Beam.start_lt hv.next
    have hd : 0 < b.next.mode.dots := by cases b.next.mode <;> decide
    omega
  have hm : (Clock.ticksPerFrame * frames + b.start + b.mode.dots) % Clock.ticksPerFrame =
      b.next.start := by
    rw [Nat.add_assoc, Beam.start_next, Nat.mul_add_mod]
    split <;> simp [Nat.mod_eq_of_lt hn]
  obtain ⟨k, hk⟩ : ∃ k, b.mode.dots = k + 1 := by cases b.mode <;> exact ⟨_, rfl⟩
  have hs : occasions on P (Clock.ticksPerFrame * frames + b.start + k) = _ :=
    occasions_stay hq hv frames (by omega)
  rw [hk] at hm ⊢
  rw [← Nat.add_assoc, occasions_add, hs, Nat.Ioc_succ_singleton, Finset.filter_singleton,
    Nat.add_assoc _ k, hm]
  cases on <;> by_cases hp : P b.next.start <;> simp [hp]

variable (stat lyc : UInt8)

theorem statOccasions_zero : statOccasions stat lyc 0 = 0 := by
  simp [statOccasions, occasions]

theorem statOccasions_stay (hv : b.Valid) (frames : Nat) {elapsed : Nat}
    (he : elapsed < b.mode.dots) :
    statOccasions stat lyc (Clock.ticksPerFrame * frames + b.start + elapsed) =
      statOccasions stat lyc (Clock.ticksPerFrame * frames + b.start) := by
  simp only [statOccasions, occasions_stay quiet_beginsHblank hv _ he,
    occasions_stay quiet_beginsVblank hv _ he, occasions_stay quiet_beginsScan hv _ he,
    occasions_stay (quiet_beginsLine lyc) hv _ he]

theorem statOccasions_next (hv : b.Valid) (frames : Nat) :
    statOccasions stat lyc (Clock.ticksPerFrame * frames + b.start + b.mode.dots) =
      statOccasions stat lyc (Clock.ticksPerFrame * frames + b.start) +
        statAsked stat lyc b.next.start := by
  simp only [statOccasions, statAsked, occasions_next quiet_beginsHblank hv,
    occasions_next quiet_beginsVblank hv, occasions_next quiet_beginsScan hv,
    occasions_next (quiet_beginsLine lyc) hv]
  omega

end
end Video

namespace Ppu

variable {p : Ppu}

theorem stat_nextMode : p.nextMode.ppu.stat = p.stat := by
  obtain ⟨_, _, _, _, h⟩ := p.nextMode_kept
  rw [h]

theorem lyc_nextMode : p.nextMode.ppu.lyc = p.lyc := by
  obtain ⟨_, _, _, _, h⟩ := p.nextMode_kept
  rw [h]

theorem beq_lyc (ly lyc : UInt8) : (ly == lyc) = decide (ly.toNat = lyc.toNat) := by
  simp only [UInt8.toNat_inj]
  rfl

-- A change of mode asks for what the next place of the beam is an occasion for.
theorem stats_nextMode (h : p.beam.Valid) :
    p.nextMode.stats = statAsked p.stat p.lyc p.beam.next.start := by
  have hd : 0 < p.beam.next.mode.dots := by cases p.beam.next.mode <;> decide
  have hl := toNat_succ_ly h
  have hb := beginsHblank_iff h.next hd
  have hv := beginsVblank_iff h.next hd
  have hs := beginsScan_iff h.next hd
  have hc := beginsLine_iff p.lyc h.next hd
  simp only [Nat.add_zero, and_true] at hb hv hs hc
  simp only [statAsked, hb, hv, hs, hc]
  cases hm : p.mode
  case oamScan => simp [nextMode, hm, enter, Mode.source, beam, Beam.next]
  case transfer =>
    obtain ⟨_, hw⟩ := p.countWindowLine_kept
    simp [nextMode, hm, hw, enter, Mode.source, beam, Beam.next]
  case hblank =>
    by_cases he : p.ly.toNat + 1 = Clock.visibleLines <;>
      simp [nextMode, hm, enter, goToLine, beam, Beam.next, Beam.EndsPicture, Mode.source, beq_lyc,
        hl, he, Bool.and_comm] <;>
      exact Nat.add_comm ..
  case vblank =>
    have hn : p.ly.toNat + 1 ≠ Clock.visibleLines := by
      simp only [beam, hm, Beam.Valid] at h
      omega
    by_cases he : p.ly.toNat + 1 = Clock.frameLines <;>
      simp [nextMode, hm, enter, goToLine, beam, Beam.next, Beam.EndsFrame, Mode.source, beq_lyc,
        hl, hn, he, Bool.and_comm]
    exact Nat.add_comm ..

theorem vblank_nextMode_start (h : p.beam.Valid) :
    p.nextMode.vblank = decide (BeginsVblank p.beam.next.start) := by
  rw [vblank_nextMode h, decide_eq_decide, beginsVblank_next h]

-- The unit is on schedule, and its requests are those that the ticks up to its place ask for.
structure Requested (p : Ppu) (stat lyc : UInt8) (frames ticks lines vblanks stats : Nat) :
    Prop where
  scheduled : p.Scheduled frames ticks lines vblanks
  enabled   : p.stat = stat
  compared  : p.lyc = lyc
  blanks    : vblanks = occasions true BeginsVblank (Clock.ticksPerFrame * frames + p.beam.start)
  asked     : stats = statOccasions stat lyc (Clock.ticksPerFrame * frames + p.beam.start)

namespace Requested

variable {stat lyc : UInt8} {frames ticks lines vblanks stats : Nat}

theorem accrue (h : p.Requested stat lyc frames ticks lines vblanks stats) (n : Nat) :
    { p with dots := p.dots.accrue n }.Requested stat lyc frames (ticks + n) lines vblanks stats :=
  ⟨h.scheduled.accrue n, h.enabled, h.compared, h.blanks, h.asked⟩

theorem nextMode (h : p.Requested stat lyc frames ticks lines vblanks stats) (hd : p.dots.Due) :
    ∃ frames lines, p.takeDots.nextMode.ppu.Requested stat lyc frames ticks lines
      (vblanks + p.takeDots.nextMode.vblank.toNat) (stats + p.takeDots.nextMode.stats) := by
  have hv : p.beam.Valid := h.scheduled.valid
  have hb : p.takeDots.nextMode.ppu.beam = p.beam.next := beam_nextMode hv
  have hr : Clock.ticksPerFrame * (frames + if p.beam.EndsFrame then 1 else 0) +
      p.beam.next.start = Clock.ticksPerFrame * frames + p.beam.start + p.beam.mode.dots := by
    rw [Nat.add_assoc _ p.beam.start, p.beam.start_next, Nat.mul_add]
    split <;> omega
  refine ⟨_, _, h.scheduled.nextMode hd, ?enabled, ?compared, ?blanks, ?asked⟩
  case enabled  => exact stat_nextMode.trans h.enabled
  case compared => exact lyc_nextMode.trans h.compared
  case blanks =>
    rw [hb, hr, occasions_next quiet_beginsVblank hv, h.blanks]
    exact congrArg (_ + Bool.toNat ·) (vblank_nextMode_start hv)
  case asked =>
    have hs : p.takeDots.nextMode.stats = statAsked p.stat p.lyc p.beam.next.start :=
      stats_nextMode hv
    rw [hb, hr, statOccasions_next stat lyc hv, h.asked, hs, h.enabled, h.compared]

-- Once no change of mode is due, the ticks alone tell the requests.
theorem settled (h : p.Requested stat lyc frames ticks lines vblanks stats) (hd : ¬p.dots.Due) :
    vblanks = occasions true BeginsVblank ticks ∧ stats = statOccasions stat lyc ticks := by
  have hv : p.beam.Valid := h.scheduled.valid
  have he := h.scheduled.elapsed_lt hd
  rw [h.blanks, h.asked, h.scheduled.ticks, occasions_stay quiet_beginsVblank hv _ he,
    statOccasions_stay stat lyc hv _ he]
  exact ⟨rfl, rfl⟩

-- A unit that is just switched on has asked for nothing.
theorem start (hon : p.lcdEnabled) (hl : p.ly = 0) (hm : p.mode = .oamScan)
    (hd : p.dots = .ofPeriod (Mode.dots .oamScan)) :
    ∃ frames, p.Requested p.stat p.lyc frames 0 0 0 0 := by
  have ⟨_, frames, hs⟩ := OnSchedule.start hon hl hm hd
  have hr : Clock.ticksPerFrame * frames + p.beam.start = 0 :=
    Nat.eq_zero_of_add_eq_zero_right hs.ticks.symm
  exact ⟨frames, hs, rfl, rfl, by rw [hr]; rfl, by rw [hr, statOccasions_zero]⟩

end Requested
end Ppu

namespace Video.Run

variable {η : Type} [LineSink η] {s : Run η} {stat lyc : UInt8} {ticks vblanks stats n : Nat}

-- A run of a unit that had made some requests before it.
def Asks (stat lyc : UInt8) (ticks vblanks stats : Nat) (s : Run η) : Prop :=
  ∃ frames lines,
    s.ppu.Requested stat lyc frames ticks lines (vblanks + s.vblanks) (stats + s.stats)

theorem change_stats : s.change.stats = s.stats + s.ppu.takeDots.nextMode.stats := by
  rw [change_eq]
  cases s.ppu.takeDots.nextMode.line <;> rfl

theorem Asks.change (h : s.Asks stat lyc ticks vblanks stats) (hd : s.ppu.dots.Due) :
    s.change.Asks stat lyc ticks vblanks stats := by
  have ⟨frames, lines, h⟩ := h
  have ⟨frames, lines, h⟩ := h.nextMode hd
  rw [Nat.add_assoc, Nat.add_assoc, ← change_vblanks, ← change_stats, ← change_ppu] at h
  exact ⟨frames, lines, h⟩

theorem Asks.settle (h : s.Asks stat lyc ticks vblanks stats) :
    s.settle.Asks stat lyc ticks vblanks stats := by
  induction s using Run.settle.induct
  case case1 s hd _ hi => exact settle_of_due hd ▸ hi (h.change hd)
  case case2 s hd      => exact (settle_of_not_due hd).symm ▸ h

-- Lets more time pass, and goes on counting.
def advance (s : Run η) (n : Nat) : Run η :=
  let r := s.ppu.advance n s.sink
  { r with
    vblanks := s.vblanks + r.vblanks
    stats   := s.stats + r.stats
    refusal := s.refusal <|> r.refusal }

def advances (s : Run η) (ns : List Nat) : Run η := ns.foldl advance s

-- A unit that is on, between two calls.
def Rests (stat lyc : UInt8) (ticks : Nat) (s : Run η) : Prop :=
  ¬s.ppu.dots.Due ∧ s.Asks stat lyc ticks 0 0

theorem Rests.advance (h : s.Rests stat lyc ticks) (n : Nat) :
    (s.advance n).Rests stat lyc (ticks + n) := by
  obtain ⟨_, frames, lines, h⟩ := h
  simp only [Run.advance, Ppu.advance, h.scheduled.on, if_true]
  have ha : Asks stat lyc (ticks + n) (0 + s.vblanks) (0 + s.stats)
      { ppu := { s.ppu with dots := s.ppu.dots.accrue n }, sink := s.sink } :=
    ⟨frames, lines, h.accrue n⟩
  obtain ⟨frames, lines, h⟩ := ha.settle
  rw [Nat.add_assoc, Nat.add_assoc] at h
  exact ⟨settle_not_due _, frames, lines, h⟩

theorem Rests.advances (h : s.Rests stat lyc ticks) (ns : List Nat) :
    (s.advances ns).Rests stat lyc (ticks + ns.sum) := by
  induction ns generalizing s ticks
  case nil => exact h
  case cons n ns hi =>
    rw [List.sum_cons, ← Nat.add_assoc]
    exact hi (h.advance n)

-- The requests since the screen was switched on are told by the ticks since then, however they were
-- portioned, whatever was drawn and whatever the sink refused. Each tick of a frame at which a
-- source that is on has something to ask for is one request.
theorem requests_of_ticks {p : Ppu} (on : p.lcdEnabled) (ly : p.ly = 0) (mode : p.mode = .oamScan)
    (dots : p.dots = .ofPeriod (Mode.dots .oamScan)) (sink : η) (ns : List Nat) :
    let r := advances { ppu := p, sink } ns
    r.stats = statOccasions p.stat p.lyc ns.sum ∧
    r.vblanks = occasions true BeginsVblank ns.sum := by
  intro r
  have ⟨frames, hs⟩ := Ppu.Requested.start on ly mode dots
  have hd : ¬p.dots.Due := by
    rw [dots]
    decide
  have hr : Rests p.stat p.lyc 0 { ppu := p, sink } := ⟨hd, frames, 0, hs⟩
  have ⟨hd, _, _, h⟩ := hr.advances ns
  have ⟨hv, hs⟩ := h.settled hd
  rw [Nat.zero_add, Nat.zero_add] at hv hs
  exact ⟨hs, hv⟩

-- All sources are on, and line 144 is compared with, where two of them coincide.
theorem requests_of_ticks_sullen :
    let p : Ppu := { stat := 0x78, lyc := 144 }
    let ns := [70224, 65663, 1]
    let r := advances { ppu := p, sink := Machine.Sullen.mk } ns
    (p.lcdEnabled ∧ p.ly = 0 ∧ p.mode = .oamScan ∧ p.dots = .ofPeriod (Mode.dots .oamScan)) ∧
    r.stats = statOccasions p.stat p.lyc ns.sum ∧
    r.vblanks = occasions true BeginsVblank ns.sum :=
  have hon : ({ stat := 0x78, lyc := 144 } : Ppu).lcdEnabled := by decide
  ⟨⟨hon, rfl, rfl, rfl⟩, requests_of_ticks hon rfl rfl rfl _ _⟩

end Video.Run
end DotMatrix
