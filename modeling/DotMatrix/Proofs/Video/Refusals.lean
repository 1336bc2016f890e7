import DotMatrix.Proofs.Checked.Schedule
import DotMatrix.Proofs.Host.Refusals
import DotMatrix.Proofs.Host.Watching

namespace DotMatrix

open Video

variable {η θ : Type} [LineSink η] [LineSink θ]

namespace Video

namespace LineSink

variable (sink : η) (lines : List (Nat × Scanline)) (n : Nat) (pixels : Scanline)

-- A sink to which some lines have been handed.
def after (lines : List (Nat × Scanline)) : η :=
  lines.foldl (fun sink line => (draw sink line.fst line.snd).snd) sink

-- What a sink answers to some lines, each handed over after those before it.
def answers (sink : η) : List (Nat × Scanline) → List (Option String)
  | []                   => []
  | (n, pixels) :: lines => (draw sink n pixels).fst :: answers (draw sink n pixels).snd lines

def firstRefusal? : Option String := (answers sink lines).findSome? id

theorem after_concat : after sink (lines ++ [(n, pixels)]) =
    (draw (after sink lines) n pixels).snd :=
  List.foldl_append

theorem answers_concat : answers sink (lines ++ [(n, pixels)]) =
    answers sink lines ++ [(draw (after sink lines) n pixels).fst] := by
  induction lines generalizing sink with
  | nil             => rfl
  | cons line _ ih  => exact congrArg ((draw sink line.fst line.snd).fst :: ·) (ih _)

-- Only the first refusal counts.
theorem firstRefusal?_concat : firstRefusal? sink (lines ++ [(n, pixels)]) =
    (firstRefusal? sink lines <|> (draw (after sink lines) n pixels).fst) := by
  rw [firstRefusal?, firstRefusal?, answers_concat, List.findSome?_append,
    List.findSome?_singleton]
  cases (answers sink lines).findSome? id <;> rfl

example : firstRefusal? Machine.Sullen.mk [(3, .blank), (4, .blank)] = some "no room for line 3" :=
  rfl

end LineSink

namespace Run

variable {s : Run (Watched η)} {sink : η}

-- The refusal that is told is the sink's first one of all lines so far.
structure Heard (sink : η) (s : Run (Watched η)) : Prop where
  host    : s.sink.host = LineSink.after sink s.sink.lines
  refusal : s.refusal = LineSink.firstRefusal? sink s.sink.lines

namespace Heard

theorem hand (h : s.Heard sink) (line : Option (Nat × Scanline)) : (s.hand line).Heard sink := by
  cases line
  case none => exact h
  case some line =>
    obtain ⟨n, pixels⟩ := line
    have hl : (s.hand (some (n, pixels))).sink.lines = s.sink.lines ++ [(n, pixels)] :=
      s.sink.lines_draw n pixels
    constructor
    case host =>
      rw [hl, LineSink.after_concat, ← h.host]
      rfl
    case refusal =>
      rw [hl, LineSink.firstRefusal?_concat, ← h.host, ← h.refusal]
      rfl

theorem change (h : s.Heard sink) : s.change.Heard sink := by
  apply hand
  exact ⟨h.host, h.refusal⟩

theorem settle (h : s.Heard sink) : s.settle.Heard sink := by
  induction s using Run.settle.induct
  case case1 s hd _ hi => exact (settle_of_due hd).symm ▸ hi h.change
  case case2 s hd      => exact (settle_of_not_due hd).symm ▸ h

end Heard

-- Whether the checks pass does not depend on the sink, and passed checks change nothing.
theorem checkedSettle_of_ppu {s : Run η} {t : Run θ} (h : s.ppu = t.ppu) (ticks : Nat) :
    s.checkedSettle ticks =
      (t.checkedSettle ticks).map fun _ => (s.withDots (s.ppu.dots.accrue ticks)).settle := by
  by_cases hb : s.ppu.dots.elapsed + ticks < 1 <<< 64
  case neg => rw [checkedSettle_of_overflow hb, checkedSettle_of_overflow (h ▸ hb), Option.map_none]
  by_cases hd : (s.ppu.dots.accrue ticks).Due
  case neg =>
    rw [checkedSettle_of_not_due hb hd, checkedSettle_of_not_due (h ▸ hb) (h ▸ hd),
      settle_of_not_due hd, Option.map_some]
  let dots := s.ppu.dots.accrue ticks
  have hp : (s.withDots dots.take).ppu = (t.withDots dots.take).ppu :=
    congrArg (fun p : Ppu => { p with dots := dots.take }) h
  rw [checkedSettle_of_due hb hd, checkedSettle_of_due (h ▸ hb) (h ▸ hd), ← h, settle_of_due hd]
  cases hn : (s.withDots dots.take).ppu.checkedNextMode with
  | none =>
    rw [checkedChange, checkedChange, ← hp, hn]
    rfl
  | some n =>
    have hc : (s.withDots dots).change.ppu = (t.withDots dots).change.ppu := by
      rw [change_ppu, change_ppu]
      exact congrArg (fun p : Ppu => p.nextMode.ppu) hp
    rw [checkedChange_of_checkedNextMode hn, checkedChange_of_checkedNextMode (hp ▸ hn)]
    exact checkedSettle_of_ppu hc 0
termination_by s.ppu.dots.elapsed + ticks
decreasing_by exact change_elapsed_lt hd

end Run
end Video

namespace Ppu

theorem checkedAdvance_of_sink (p : Ppu) (ticks : Nat) (x : η) (y : θ) :
    p.checkedAdvance ticks x = (p.checkedAdvance ticks y).map fun _ => p.advance ticks x := by
  let s : Run η := { ppu := p, sink := x }
  let t : Run θ := { ppu := p, sink := y }
  have hs : s.ppu = t.ppu := rfl
  simp only [checkedAdvance, advance]
  split
  case isTrue  => exact Run.checkedSettle_of_ppu hs ticks
  case isFalse => rfl

theorem heard_advance (p : Ppu) (ticks : Nat) (sink : η) :
    (p.advance ticks (Watched.of sink)).Heard sink := by
  simp only [advance]
  split
  case isTrue  => exact Run.Heard.settle ⟨rfl, rfl⟩
  case isFalse => exact ⟨rfl, rfl⟩

-- Whatever a sink refuses, the unit comes to the state, makes the requests and hands over the lines
-- that it would with a sink that takes all lines. It tells the first refusal, if there is one. Nor
-- is it up to the sink whether a check stops the unit.
theorem refusals_only_told (p : Ppu) (ticks : Nat) (sink : η) :
    let r := p.advance ticks sink
    let q := p.advance ticks Watched.willing
    r.ppu = q.ppu ∧ r.vblanks = q.vblanks ∧ r.stats = q.stats ∧
    (p.advance ticks (Watched.of sink)).sink.calls = q.sink.calls ∧
    r.sink = LineSink.after sink q.sink.lines ∧
    r.refusal = LineSink.firstRefusal? sink q.sink.lines ∧ q.refusal = none ∧
    p.checkedAdvance ticks sink = (p.checkedAdvance ticks Watched.willing).map fun _ => r := by
  intro r q
  let w := p.advance ticks (Watched.of sink)
  have hc : (Watched.of sink).SameCalls Watched.willing := rfl
  have ha : w.Alike Watched.SameCalls q := p.advance_alike Watched.drawAlike_sameCalls hc ticks
  have hw : w.Watches r := p.advance_watched ticks (Watched.of sink)
  have hh : w.Heard sink := p.heard_advance ticks sink
  have hl : w.sink.lines = q.sink.lines := congrArg (List.filterMap _) ha.sink
  refine ⟨hw.ppu ▸ ha.ppu, hw.vblanks ▸ ha.vblanks, hw.stats ▸ ha.stats, ha.sink, ?_, ?_,
    Watched.neverRefuses_willing.ppu_advance .., p.checkedAdvance_of_sink ..⟩
  case refine_1 => exact hw.sink ▸ hl ▸ hh.host
  case refine_2 => exact hw.refusal ▸ hl ▸ hh.refusal

end Ppu
end DotMatrix
