import DotMatrix.Proofs.Checked.Counter
import DotMatrix.Proofs.Checked.Line
import DotMatrix.Proofs.Video.Raster

namespace DotMatrix

open Video

namespace Ppu

variable {p : Ppu}

-- No sum of a line's number wraps here.
def checkedNextMode (p : Ppu) : Checked Transition :=
  match p.mode with
  | .oamScan =>
    let (stats, ppu) := p.enter .transfer
    some { ppu, stats }
  | .transfer => do
    let pixels ← p.checkedRenderLine
    let (stats, ppu) := p.countWindowLine.enter .hblank
    return { ppu, line := some (p.ly.toNat, pixels), stats }
  | .hblank => do
    let ly ← Checked.add 8 p.ly.toNat 1
    let (onLine, ppu) := p.goToLine (.ofNat ly)
    let vblank := ppu.ly.toNat == Clock.visibleLines
    let (onMode, ppu) := ppu.enter (if vblank then .vblank else .oamScan)
    return { ppu, vblank, stats := onLine + onMode }
  | .vblank => do
    let ly ← Checked.add 8 p.ly.toNat 1
    if ly = Clock.frameLines then
      let (onLine, ppu) := { p with wly := 0 }.goToLine 0
      let (onMode, ppu) := ppu.enter .oamScan
      return { ppu, stats := onLine + onMode }
    else
      let ly ← Checked.add 8 p.ly.toNat 1
      let (stats, ppu) := p.goToLine (.ofNat ly)
      return { ppu, stats }

theorem ofNat_succ_ly (p : Ppu) : UInt8.ofNat (p.ly.toNat + 1) = p.ly + 1 := by
  rw [UInt8.ofNat_add, UInt8.ofNat_toNat]
  rfl

-- Checks that pass change nothing.
theorem eq_nextMode {t : Transition} (h : p.checkedNextMode = some t) : t = p.nextMode := by
  cases hm : p.mode
  case oamScan =>
    simp only [checkedNextMode, hm] at h
    simp only [nextMode, hm]
    exact (Option.some.inj h).symm
  case transfer =>
    simp only [checkedNextMode, hm, checkedRenderLine_eq] at h
    simp only [nextMode, hm]
    exact (Option.some.inj h).symm
  case hblank =>
    simp only [checkedNextMode, hm] at h
    obtain ⟨ly, hl, h⟩ := Option.bind_eq_some_iff.mp h
    rw [Checked.eq_of_fit hl, ofNat_succ_ly] at h
    simp only [nextMode, hm]
    exact (Option.some.inj h).symm
  case vblank =>
    simp only [checkedNextMode, hm] at h
    obtain ⟨ly, hl, h⟩ := Option.bind_eq_some_iff.mp h
    rw [Checked.eq_of_fit hl] at h
    simp only [nextMode, hm]
    split at h
    case isTrue he =>
      rw [if_pos he]
      exact (Option.some.inj h).symm
    case isFalse he =>
      obtain ⟨ly, hl, h⟩ := Option.bind_eq_some_iff.mp h
      rw [Checked.eq_of_fit hl, ofNat_succ_ly] at h
      rw [if_neg he]
      exact (Option.some.inj h).symm

theorem checkedNextMode_eq (h : p.beam.Valid) : p.checkedNextMode = some p.nextMode := by
  have hs := toNat_succ_ly h
  have hl : p.ly.toNat + 1 < 1 <<< 8 := hs ▸ (p.ly + 1).toNat_lt
  have hn : p.checkedNextMode ≠ none := by
    simp only [checkedNextMode, checkedRenderLine_eq, Checked.add_eq hl]
    cases p.mode
    case vblank =>
      simp only [Option.bind_eq_bind, Option.bind_some]
      split <;> exact Option.some_ne_none _
    all_goals exact Option.some_ne_none _
  have ⟨t, ht⟩ := Option.ne_none_iff_exists'.mp hn
  rw [ht, eq_nextMode ht]

end Ppu

namespace Video.Run

variable {η : Type} [LineSink η] {s : Run η}

def checkedChange (s : Run η) : Checked (Run η) := do
  let t ← s.ppu.checkedNextMode
  return { s with
    ppu     := t.ppu
    vblanks := s.vblanks + t.vblank.toNat
    stats   := s.stats + t.stats }.hand t.line

def withDots (s : Run η) (dots : Counter) : Run η := { s with ppu := { s.ppu with dots } }

theorem checkedChange_elapsed {t : Run η} (h : s.checkedChange = some t) :
    t.ppu.dots.elapsed = s.ppu.dots.elapsed := by
  have ⟨n, hn, h⟩ := Option.bind_eq_some_iff.mp h
  rw [Ppu.eq_nextMode hn] at h
  rw [← Option.some.inj h, hand_ppu]
  exact Ppu.nextMode_elapsed _

theorem checkedChange_of_checkedNextMode {dots : Counter} {t : Transition}
    (h : (s.withDots dots.take).ppu.checkedNextMode = some t) :
    (s.withDots dots.take).checkedChange = some (s.withDots dots).change := by
  rw [checkedChange, h, Ppu.eq_nextMode h]
  rfl

-- Changes the mode as often as it is due within some ticks.
def checkedSettle (s : Run η) (ticks : Nat) : Checked (Run η) :=
  match _ : s.ppu.dots.checkedAdvance ticks with
  | none               => none
  | some (false, dots) => some (s.withDots dots)
  | some (true, dots)  =>
    match _ : (s.withDots dots).checkedChange with
    | none   => none
    | some s => s.checkedSettle 0
termination_by s.ppu.dots.elapsed + ticks
decreasing_by
  have hc : s.ppu.dots.elapsed = dots.elapsed := checkedChange_elapsed ‹_›
  exact hc ▸ Counter.checkedAdvance_lt ‹_›

theorem checkedSettle_of_overflow {ticks : Nat} (h : ¬s.ppu.dots.elapsed + ticks < 1 <<< 64) :
    s.checkedSettle ticks = none := by
  rw [checkedSettle.eq_def, Counter.checkedAdvance_eq_none h]

theorem checkedSettle_of_due {ticks : Nat} (h : s.ppu.dots.elapsed + ticks < 1 <<< 64)
    (hd : (s.ppu.dots.accrue ticks).Due) : s.checkedSettle ticks =
      (s.withDots (s.ppu.dots.accrue ticks).take).checkedChange.bind (·.checkedSettle 0) := by
  have ha : s.ppu.dots.advance ticks = (true, (s.ppu.dots.accrue ticks).take) := if_pos hd
  rw [checkedSettle.eq_def, Counter.checkedAdvance_eq h, ha]
  dsimp only
  split <;> simp [*]

theorem checkedSettle_of_not_due {ticks : Nat} (h : s.ppu.dots.elapsed + ticks < 1 <<< 64)
    (hd : ¬(s.ppu.dots.accrue ticks).Due) :
    s.checkedSettle ticks = some (s.withDots (s.ppu.dots.accrue ticks)) := by
  have ha : s.ppu.dots.advance ticks = (false, s.ppu.dots.accrue ticks) := if_neg hd
  rw [checkedSettle.eq_def, Counter.checkedAdvance_eq h, ha]

theorem change_elapsed_lt {ticks : Nat} (hd : (s.ppu.dots.accrue ticks).Due) :
    (s.withDots (s.ppu.dots.accrue ticks)).change.ppu.dots.elapsed <
      s.ppu.dots.elapsed + ticks := by
  rw [change_elapsed]
  exact hd.take_elapsed_lt

theorem checkedSettle_eq {ticks total before : Nat} {s : Run η}
    (hf : (s.withDots (s.ppu.dots.accrue ticks)).Follows (fun _ _ => True) total before)
    (hb : s.ppu.dots.elapsed + ticks < 1 <<< 64) :
    s.checkedSettle ticks = some (s.withDots (s.ppu.dots.accrue ticks)).settle := by
  by_cases hd : (s.ppu.dots.accrue ticks).Due
  case pos =>
    let t := (s.withDots (s.ppu.dots.accrue ticks)).change
    have hv : (s.withDots (s.ppu.dots.accrue ticks).take).ppu.beam.Valid := hf.valid
    have hc : (s.withDots (s.ppu.dots.accrue ticks).take).checkedChange = some t :=
      checkedChange_of_checkedNextMode (Ppu.checkedNextMode_eq hv)
    have he : t.ppu.dots.elapsed < s.ppu.dots.elapsed + ticks := change_elapsed_lt hd
    rw [checkedSettle_of_due hb hd, hc, settle_of_due hd]
    exact checkedSettle_eq (s := t) (hf.change (fun _ _ => trivial) hd) (Nat.lt_trans he hb)
  case neg => rw [checkedSettle_of_not_due hb hd, settle_of_not_due hd]
termination_by s.ppu.dots.elapsed + ticks

end Video.Run

namespace Ppu

variable {η : Type} [LineSink η] {p : Ppu}

def checkedAdvance (p : Ppu) (ticks : Nat) (sink : η) : Checked (Run η) :=
  if p.lcdEnabled then Run.checkedSettle { ppu := p, sink } ticks else some { ppu := p, sink }

-- A unit is off, or it has been on its schedule since it was switched on.
def Orderly (p : Ppu) : Prop := p.Stopped ∨ ∃ ticks lines vblanks, p.OnSchedule ticks lines vblanks

theorem orderly_postBoot : Ppu.postBoot.Orderly := .inr ⟨0, 0, 0, .postBoot⟩

theorem Orderly.written {q : Ppu} (h : p.Orderly) (hw : p.Written q) : q.Orderly := by
  cases hw
  case stopped _ hoff => exact .inl hoff
  case started hoff hon hl hm hd =>
    cases h
    case inl h => exact .inr ⟨0, 0, 0, .start hon (hl.trans h.ly) hm hd⟩
    case inr h =>
      have ⟨_, _, _, h⟩ := h
      exact absurd h.on (by simp [hoff])
  case kept hon hb hd =>
    cases h
    case inl h => exact .inl (h.congr (hon.trans h.off) hb)
    case inr h =>
      have ⟨_, _, _, h⟩ := h
      exact .inr ⟨_, _, _, h.congr (hon ▸ h.on) hb hd⟩

theorem Orderly.checkedAdvance_eq (h : p.Orderly) {ticks : Nat} (ht : ticks ≤ 24) (sink : η) :
    p.checkedAdvance ticks sink = some (p.advance ticks sink) := by
  simp only [checkedAdvance, advance]
  split
  case isFalse => rfl
  case isTrue hon =>
    cases h
    case inl h => exact absurd hon (by simp [h.off])
    case inr h =>
      obtain ⟨_, _, _, hd, _, h⟩ := h
      have he := h.elapsed_lt hd
      have hm : p.beam.mode.dots ≤ 456 := by cases p.beam.mode <;> decide
      exact Run.checkedSettle_eq ⟨_, _, h.accrue ticks, trivial⟩ (by dsimp only; omega)

theorem Orderly.advance (h : p.Orderly) (ticks : Nat) (sink : η) :
    (p.advance ticks sink).ppu.Orderly := by
  cases h
  case inl h => exact .inl (h.advance ticks sink ▸ h)
  case inr h =>
    have ⟨_, _, _, h⟩ := h
    have ⟨_, h, _⟩ : ∃ lines, (p.advance ticks sink).ppu.OnSchedule _ lines _ ∧ True :=
      h.advance (Q := fun _ _ => True) (fun _ _ => trivial) trivial ticks
    exact .inr ⟨_, _, _, h⟩

end Ppu
end DotMatrix
