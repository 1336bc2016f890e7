import DotMatrix.Machine.Frame
import DotMatrix.Proofs.Host.Watched

namespace DotMatrix

open Video Sound

variable {η θ : Type} {R : η → θ → Prop}

-- Hosts in the relation stay in it when both are handed the same line.
def DrawAlike [LineSink η] [LineSink θ] (R : η → θ → Prop) : Prop :=
  ∀ {x y}, R x y → ∀ n pixels, R (LineSink.draw x n pixels).snd (LineSink.draw y n pixels).snd

-- Hosts in the relation stay in it when both are handed the same buffer.
def QueueAlike [SampleSink η] [SampleSink θ] (R : η → θ → Prop) : Prop :=
  ∀ {x y}, R x y → ∀ frames, R (SampleSink.queue x frames).snd (SampleSink.queue y frames).snd

section Video

variable [LineSink η] [LineSink θ]

-- Two runs that change their mode at the same times stay in a relation that no change breaks.
theorem Video.Run.settle_of_change {Q : Run η → Run θ → Prop}
    (hp : ∀ {s t}, Q s t → s.ppu = t.ppu) (hc : ∀ {s t}, Q s t → Q s.change t.change)
    {s : Run η} {t : Run θ} (h : Q s t) : Q s.settle t.settle := by
  induction s using Run.settle.induct generalizing t
  case case1 s hd _ hi =>
    have hd' : t.ppu.dots.Due := hp h ▸ hd
    rw [settle_of_due hd, settle_of_due hd']
    exact hi (hc h)
  case case2 s hd =>
    have hd' : ¬t.ppu.dots.Due := hp h ▸ hd
    rw [settle_of_not_due hd, settle_of_not_due hd']
    exact h

-- Two runs of the picture unit that differ in what their sinks have said.
structure Video.Run.Alike (R : η → θ → Prop) (s : Run η) (t : Run θ) : Prop where
  ppu     : s.ppu = t.ppu
  vblanks : s.vblanks = t.vblanks
  stats   : s.stats = t.stats
  sink    : R s.sink t.sink

namespace Video.Run.Alike

variable {s : Run η} {t : Run θ}

theorem hand (hR : DrawAlike R) (h : s.Alike R t) (line : Option (Nat × Scanline)) :
    (s.hand line).Alike R (t.hand line) := by
  cases line
  case none => exact h
  case some => exact { h with sink := hR h.sink .. }

theorem change (hR : DrawAlike R) (h : s.Alike R t) : s.change.Alike R t.change := by
  simp only [Run.change, h.ppu, h.vblanks, h.stats]
  apply hand hR
  exact ⟨rfl, rfl, rfl, h.sink⟩

theorem settle (hR : DrawAlike R) (h : s.Alike R t) : s.settle.Alike R t.settle :=
  settle_of_change ppu (change hR) h

end Video.Run.Alike

theorem Ppu.advance_alike (hR : DrawAlike R) {x : η} {y : θ} (h : R x y) (p : Ppu) (ticks : Nat) :
    (p.advance ticks x).Alike R (p.advance ticks y) := by
  simp only [Ppu.advance]
  split
  · exact Run.Alike.settle hR ⟨rfl, rfl, rfl, h⟩
  · exact ⟨rfl, rfl, rfl, h⟩

end Video

section Machine

variable [LineSink η] [SampleSink η] [LineSink θ] [SampleSink θ]

-- Two runs of a machine that differ in what their hosts have said.
structure Machine.Run.Alike (R : η → θ → Prop) (r : Machine.Run η) (q : Machine.Run θ) : Prop where
  machine : r.machine = q.machine
  host    : R r.host q.host
  -- Only the machine itself meets an illegal instruction.
  illegal : ∀ e, r.error = some (.illegal e) ↔ q.error = some (.illegal e)

theorem Board.advance_alike (hd : DrawAlike R) (hq : QueueAlike R) {x : η} {y : θ} (h : R x y)
    (b : Board) (ticks : Nat) :
    (b.advance ticks x).board = (b.advance ticks y).board ∧
      R (b.advance ticks x).host (b.advance ticks y).host := by
  have ha := b.ppu.advance_alike hd h ticks
  simp only [Board.advance, ha.ppu, ha.vblanks, ha.stats]
  refine ⟨trivial, ?_⟩
  cases (b.apu.advance ticks).fst
  case none => exact ha.sink
  case some => exact hq ha.sink _

theorem Machine.step_alike (hd : DrawAlike R) (hq : QueueAlike R) {x : η} {y : θ} (h : R x y)
    (m : Machine) : (m.step x).Alike R (m.step y) := by
  simp only [Machine.step]
  split
  case h_1 => exact ⟨rfl, h, fun _ => Iff.rfl⟩
  case h_2 ticks core _ =>
    have ha := Board.advance_alike hd hq h core.bus ticks
    exact ⟨by rw [ha.left], ha.right, by simp⟩

end Machine

-- Hosts of the type refuse nothing.
structure NeverRefuses (η : Type) [LineSink η] [SampleSink η] : Prop where
  draw  : ∀ (host : η) n pixels, (LineSink.draw host n pixels).fst = none
  queue : ∀ (host : η) frames, (SampleSink.queue host frames).fst = none

namespace NeverRefuses

variable [LineSink η] [SampleSink η]

theorem settle (h : NeverRefuses η) {s : Video.Run η} (hs : s.refusal = none) :
    s.settle.refusal = none := by
  induction s using Video.Run.settle.induct
  case case1 s hd _ hi =>
    rw [Video.Run.settle_of_due hd]
    apply hi
    simp only [Video.Run.change]
    cases { s.ppu with dots := s.ppu.dots.take }.nextMode.line
    case none => exact hs
    case some => simp [Video.Run.hand, hs, h.draw]
  case case2 s hd => rw [Video.Run.settle_of_not_due hd, hs]

theorem ppu_advance (h : NeverRefuses η) (p : Ppu) (ticks : Nat) (host : η) :
    (p.advance ticks host).refusal = none := by
  simp only [Ppu.advance]
  split
  · exact h.settle rfl
  · rfl

theorem advance (h : NeverRefuses η) (b : Board) (ticks : Nat) (host : η) :
    (b.advance ticks host).refusal = none := by
  simp only [Board.advance, h.ppu_advance]
  cases (b.apu.advance ticks).fst
  case none => rfl
  case some => exact h.queue ..

theorem step_error (h : NeverRefuses η) {m : Machine} {host : η}
    (hi : ∀ e, (m.step host).error ≠ some (.illegal e)) : (m.step host).error = none := by
  simp only [Machine.step] at hi ⊢
  split
  case h_1 he => simp [he] at hi
  case h_2    => simp [h.advance]

theorem runFrame_error (h : NeverRefuses η) {m : Machine} {host : η}
    (hi : ∀ e, (m.runFrame host).error ≠ some (.illegal e)) : (m.runFrame host).error = none := by
  induction m, host using Machine.runFrame.induct
  case case1 m host hl next he ih =>
    rw [Machine.runFrame_of_step_ok hl (Option.isNone_iff_eq_none.mp he)] at hi ⊢
    exact ih hi
  case case2 m host hl next he =>
    rw [Machine.runFrame_of_step_error hl (by simpa using he)] at hi ⊢
    exact h.step_error hi
  case case3 m host hl => rw [Machine.runFrame_of_le (Nat.le_of_not_lt hl)]

end NeverRefuses

theorem Watched.neverRefuses_willing : NeverRefuses (Watched Willing) where
  draw _ _ _ := rfl
  queue _ _  := rfl

end DotMatrix
