import DotMatrix.Proofs.Host.Watched
import DotMatrix.Proofs.Video.Raster

namespace DotMatrix.Video

-- What is done to the unit from outside.
inductive Access
  | register (low v : UInt8)
  | vram (a : UInt16) (v : UInt8)
  | oam (i : Fin 0xa0) (v : UInt8)
  | copyOam (oam : Memory 0xa0)
  | advance (ticks : Nat)

-- The unit and the screen it draws to, with what it did since the screen was switched on.
structure Showing (η : Type) where
  ppu     : Ppu := .postBoot
  screen  : Watched η
  ticks   : Nat := 0
  vblanks : Nat := 0

namespace Showing

variable {η : Type} [LineSink η]

def access (s : Showing η) : Access → Showing η
  | .register low v =>
    let ppu := s.ppu.write low v
    if !s.ppu.lcdEnabled && ppu.lcdEnabled then { ppu, screen := s.screen.clear }
    else { s with ppu }
  | .vram a v    => { s with ppu := s.ppu.writeVram a v }
  | .oam i v     => { s with ppu := s.ppu.writeOam i v }
  | .copyOam oam => { s with ppu.oam := oam }
  | .advance n   =>
    let r := s.ppu.advance n s.screen
    { ppu := r.ppu, screen := r.sink, ticks := s.ticks + n, vblanks := s.vblanks + r.vblanks }

def accesses (s : Showing η) (as : List Access) : Showing η := as.foldl access s

-- The screen has been handed some lines since it was switched on, numbered from zero in each frame.
def Counted (screen : Watched η) (lines : Nat) : Prop :=
  screen.lines.map Prod.fst = (List.range lines).map (· % Clock.visibleLines)

omit [LineSink η] in
theorem counted_start (screen : η) : Counted (.of screen) 0 :=
  rfl

theorem counts_counted : Counts (Counted : Watched η → Nat → Prop) := by
  intro screen lines h pixels
  rw [Counted, Watched.lines_draw, List.map_append, h, List.range_succ, List.map_append]
  rfl

-- What holds at all times.
def Regular (s : Showing η) : Prop :=
  s.ppu.Stopped ∨ ∃ lines, s.ppu.OnSchedule s.ticks lines s.vblanks ∧ Counted s.screen lines

theorem Regular.register {s : Showing η} (h : s.Regular) (low v : UInt8) :
    (s.access (.register low v)).Regular := by
  rw [access]
  cases s.ppu.write_written low v
  case kept hon hb hd =>
    have hs : (!s.ppu.lcdEnabled && (s.ppu.write low v).lcdEnabled) = false := by
      rw [hon, Bool.not_and_self]
    simp only [hs, Bool.false_eq_true, if_false]
    cases h
    case inl h => exact .inl <| h.congr (hon ▸ h.off) hb
    case inr h =>
      have ⟨lines, h, hc⟩ := h
      exact .inr ⟨lines, h.congr (hon ▸ h.on) hb hd, hc⟩
  case stopped hon hoff =>
    simp only [hon, Bool.not_true, Bool.false_and, Bool.false_eq_true, if_false]
    exact .inl hoff
  case started hoff hon hl hm hd =>
    simp only [hoff, hon, Bool.not_false, Bool.true_and, if_true]
    cases h
    case inl h => exact .inr ⟨0, .start hon (hl.trans h.ly) hm hd, rfl⟩
    case inr h =>
      have ⟨lines, h, _⟩ := h
      simp [h.on] at hoff

theorem Regular.access {s : Showing η} (h : s.Regular) (a : Access) : (s.access a).Regular := by
  cases a
  case register low v => exact h.register low v
  case vram | oam | copyOam =>
    cases h
    case inl h => exact .inl (h.congr h.off rfl)
    case inr h =>
      have ⟨lines, h, hc⟩ := h
      exact .inr ⟨lines, h.congr h.on rfl rfl, hc⟩
  case advance n =>
    cases h
    case inl h =>
      simp only [Showing.access, h.advance]
      exact .inl h
    case inr h =>
      have ⟨lines, h, hc⟩ := h
      exact .inr (h.advance counts_counted hc n)

theorem Regular.accesses {s : Showing η} (h : s.Regular) (as : List Access) :
    (s.accesses as).Regular := by
  induction as generalizing s
  case nil          => exact h
  case cons a as hi => exact hi (h.access a)

omit [LineSink η] in
theorem regular_start (screen : η) : Regular { screen := .of screen } :=
  .inr ⟨0, .postBoot, counted_start screen⟩

-- The place and the counter of a unit that is on depend on the tick of the frame alone. It has
-- handed over the lines whose transfer is over, each one once and in order, and asked for a
-- vertical blank whenever the last of them was through. A unit that is off does nothing.
theorem schedule_of_ticks (screen : η) (as : List Access) :
    let s := accesses { screen := .of screen } as
    (s.ppu.lcdEnabled →
      s.ppu.AtTick (s.ticks % Clock.ticksPerFrame) ∧
      s.screen.lines.map Prod.fst =
        (List.range s.screen.lines.length).map (· % Clock.visibleLines) ∧
      (∀ frame line, line < Clock.visibleLines →
        (Clock.visibleLines * frame + line < s.screen.lines.length ↔
          Clock.ticksPerFrame * frame + Clock.ticksPerLine * line + 248 ≤ s.ticks)) ∧
      ∀ frame, frame < s.vblanks ↔
        Clock.ticksPerFrame * frame + Clock.ticksPerLine * Clock.visibleLines ≤ s.ticks) ∧
    (¬s.ppu.lcdEnabled →
      s.ppu.ly = 0 ∧ s.ppu.mode = .hblank ∧
      ∀ ticks, s.ppu.advance ticks s.screen = { ppu := s.ppu, sink := s.screen }) := by
  intro s
  have h : s.Regular := (regular_start screen).accesses as
  cases h
  case inl h => exact ⟨fun hon => by simp [h.off] at hon, fun _ => ⟨h.ly, h.mode, (h.advance · _)⟩⟩
  case inr h =>
    have ⟨lines, hs, hc⟩ := h
    have ⟨hd, frames, hf⟩ := hs
    have hl : s.screen.lines.length = lines := by simpa using congrArg List.length hc
    refine ⟨fun _ => ⟨hf.atTick hd, hl.symm ▸ hc, ?_, ?_⟩, (absurd hs.on ·)⟩
    · intro frame line
      exact hl ▸ hf.lt_lines_iff hd
    · intro frame
      exact hf.lt_vblanks_iff hd

end Showing
end DotMatrix.Video
