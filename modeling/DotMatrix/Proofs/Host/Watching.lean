import DotMatrix.Proofs.Host.Alike

namespace DotMatrix

open Video Sound

variable {η : Type}

-- A host under watch, and the host itself.
def Watched.Watches (w : Watched η) (x : η) : Prop := w.host = x

theorem Watched.drawAlike_watches [LineSink η] :
    DrawAlike (Watches : Watched η → η → Prop) := by
  rintro w _ rfl n pixels
  rfl

section Lines

variable [LineSink η]

namespace Video.Run

-- The runs are alike, and the same was refused in both.
structure Watches (s : Run (Watched η)) (t : Run η) : Prop extends
    s.Alike Watched.Watches t where
  refusal : s.refusal = t.refusal

namespace Watches

variable {s : Run (Watched η)} {t : Run η}

theorem hand (h : s.Watches t) (line : Option (Nat × Scanline)) :
    (s.hand line).Watches (t.hand line) := by
  cases line
  case none => exact h
  case some line =>
    refine ⟨h.toAlike.hand Watched.drawAlike_watches (some line), ?_⟩
    have hs : s.sink.host = t.sink := h.sink
    simp only [Run.hand, LineSink.draw, h.refusal, hs]

theorem change (h : s.Watches t) : s.change.Watches t.change := by
  simp only [Run.change, h.ppu, h.vblanks, h.stats]
  apply hand
  exact ⟨⟨rfl, rfl, rfl, h.sink⟩, h.refusal⟩

theorem settle (h : s.Watches t) : s.settle.Watches t.settle :=
  settle_of_change (fun h => h.ppu) change h

end Watches
end Video.Run

theorem Ppu.advance_watched (p : Ppu) (ticks : Nat) (w : Watched η) :
    (p.advance ticks w).Watches (p.advance ticks w.host) := by
  simp only [Ppu.advance]
  split
  · exact Run.Watches.settle ⟨⟨rfl, rfl, rfl, rfl⟩, rfl⟩
  · exact ⟨⟨rfl, rfl, rfl, rfl⟩, rfl⟩

end Lines

variable [LineSink η] [SampleSink η]

theorem Board.advance_watched (b : Board) (ticks : Nat) (w : Watched η) :
    let r := b.advance ticks w
    let q := b.advance ticks w.host
    r.board = q.board ∧ r.host.host = q.host ∧ r.refusal = q.refusal := by
  have hv := b.ppu.advance_watched ticks w
  have hs : (b.ppu.advance ticks w).sink.host = (b.ppu.advance ticks w.host).sink := hv.sink
  simp only [Board.advance, hv.ppu, hv.vblanks, hv.stats, hv.refusal, true_and]
  cases (b.apu.advance ticks).fst
  case none        => exact ⟨hs, rfl⟩
  case some buffer => simp only [SampleSink.queue, hs, and_self]

namespace Machine

structure Run.Watches (r : Run (Watched η)) (q : Run η) : Prop where
  machine : r.machine = q.machine
  host    : r.host.host = q.host
  error   : r.error = q.error

theorem step_watched (m : Machine) (w : Watched η) : (m.step w).Watches (m.step w.host) := by
  cases hc : m.core.step
  case mk r core =>
    cases r
    case error =>
      rw [step_of_illegal hc, step_of_illegal hc]
      exact ⟨rfl, rfl, rfl⟩
    case ok ticks =>
      obtain ⟨hb, hh, hr⟩ := core.bus.advance_watched ticks w
      rw [step_of_ok hc, step_of_ok hc]
      exact ⟨by rw [hb], hh, by rw [hr]⟩

theorem runFrame_watched (m : Machine) (w : Watched η) :
    (m.runFrame w).Watches (m.runFrame w.host) := by
  induction m, w using runFrame.induct
  case case1 m w hl next he hi =>
    have he := Option.isNone_iff_eq_none.mp he
    have hs := m.step_watched w
    rw [runFrame_of_step_ok hl he, runFrame_of_step_ok hl (hs.error ▸ he), ← hs.machine, ← hs.host]
    exact hi
  case case2 m w hl next he =>
    have he : (m.step w).error ≠ none := by simpa using he
    have hs := m.step_watched w
    rw [runFrame_of_step_error hl he, runFrame_of_step_error hl (hs.error ▸ he)]
    exact hs
  case case3 m w hl =>
    have hl := Nat.le_of_not_lt hl
    rw [runFrame_of_le hl, runFrame_of_le hl]
    exact ⟨rfl, rfl, rfl⟩

end Machine
end DotMatrix
