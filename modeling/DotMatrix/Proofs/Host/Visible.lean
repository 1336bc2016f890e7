import DotMatrix.Proofs.Checked.Machine

namespace DotMatrix

open Video Sound

namespace Video

-- A line with a number of the screen and pixels in the four shades.
structure Visible (n : Nat) (pixels : Scanline) : Prop where
  onScreen : n < Clock.visibleLines
  shades   : ∀ pixel ∈ pixels, pixel ≤ 3

end Video

namespace Ppu

variable {p : Ppu}

-- Only a line of the screen is ever transferred.
theorem visible_renderLine (hv : p.beam.Valid) (hm : p.mode = .transfer) :
    Visible p.ly.toNat p.takeDots.renderLine where
  onScreen := by simpa only [beam, hm, Beam.Valid] using hv
  shades   := renderLine_le _

end Ppu

variable {η : Type} {Q : η → Prop}

-- Hosts of this kind take all visible lines, and remain of the kind.
def TakesLines [LineSink η] (Q : η → Prop) : Prop :=
  ∀ {host}, Q host → ∀ {n pixels}, Visible n pixels →
    (LineSink.draw host n pixels).fst = none ∧ Q (LineSink.draw host n pixels).snd

-- Hosts of this kind take all buffers, and remain of the kind.
def TakesBuffers [SampleSink η] (Q : η → Prop) : Prop :=
  ∀ {host}, Q host → ∀ frames,
    (SampleSink.queue host frames).fst = none ∧ Q (SampleSink.queue host frames).snd

section Lines

variable [LineSink η]

namespace Video.Run

variable {s : Run η} {ticks before : Nat}

-- A run in which no line was refused yet.
structure Smooth (Q : η → Prop) (s : Run η) : Prop where
  taken : s.refusal = none
  sink  : Q s.sink

theorem Smooth.change (hQ : TakesLines Q) (h : s.Smooth Q) (hv : s.ppu.beam.Valid) :
    s.change.Smooth Q := by
  rw [change_eq, Ppu.line_nextMode]
  by_cases hm : s.ppu.mode = .transfer
  case pos =>
    have hm' : s.ppu.takeDots.mode = .transfer := hm
    obtain ⟨hn, hq⟩ := hQ h.sink (Ppu.visible_renderLine hv hm)
    rw [if_pos hm']
    refine ⟨?_, hq⟩
    simp only [hand, h.taken]
    exact hn
  case neg =>
    have hm' : s.ppu.takeDots.mode ≠ .transfer := hm
    rw [if_neg hm']
    exact ⟨h.taken, h.sink⟩

theorem Smooth.settle (hQ : TakesLines Q) (h : s.Smooth Q)
    (hf : s.Follows (fun _ _ => True) ticks before) : s.settle.Smooth Q := by
  induction s using Run.settle.induct
  case case1 s hd _ hi =>
    rw [settle_of_due hd]
    exact hi (h.change hQ hf.valid) (hf.change (fun _ _ => trivial) hd)
  case case2 s hd => exact (settle_of_not_due hd).symm ▸ h

end Video.Run

theorem Ppu.Orderly.smooth {p : Ppu} (h : p.Orderly) (hQ : TakesLines Q) {sink : η} (hq : Q sink)
    (ticks : Nat) : (p.advance ticks sink).Smooth Q := by
  cases h
  case inl h =>
    rw [h.advance]
    exact ⟨rfl, hq⟩
  case inr h =>
    obtain ⟨total, lines, vblanks, _, frames, h⟩ := h
    simp only [Ppu.advance, h.on, if_true]
    exact Run.Smooth.settle hQ ⟨rfl, hq⟩ ⟨frames, lines, h.accrue ticks, trivial⟩

end Lines

variable [LineSink η] [SampleSink η]

theorem Board.Orderly.taken {b : Board} (h : b.Orderly) (hl : TakesLines Q) (hs : TakesBuffers Q)
    {host : η} (hq : Q host) (ticks : Nat) :
    (b.advance ticks host).refusal = none ∧ Q (b.advance ticks host).host := by
  have hv := h.ppu.smooth hl hq ticks
  simp only [Board.advance, hv.taken]
  cases (b.apu.advance ticks).fst
  case none        => exact ⟨rfl, hv.sink⟩
  case some buffer => exact hs hv.sink buffer

namespace Machine

-- A run that no host has stopped.
structure Run.Taken (Q : η → Prop) (r : Run η) : Prop where
  host  : Q r.host
  error : r.error = none ∨ ∃ e, r.error = some (.illegal e)

namespace Orderly

variable {m : Machine} {host : η}

theorem step_taken (h : m.Orderly) (hl : TakesLines Q) (hs : TakesBuffers Q) (hq : Q host) :
    (m.step host).Taken Q := by
  have hb := h.core_step
  cases hc : m.core.step
  case mk r core =>
    rw [hc] at hb
    cases r
    case error e =>
      rw [step_of_illegal hc]
      exact ⟨hq, .inr ⟨e, rfl⟩⟩
    case ok ticks =>
      obtain ⟨hn, hq⟩ := hb.taken hl hs hq ticks
      rw [step_of_ok hc]
      exact ⟨hq, .inl (by rw [hn]; rfl)⟩

theorem runFrame_taken (h : m.Orderly) (hl : TakesLines Q) (hs : TakesBuffers Q) (hq : Q host) :
    (m.runFrame host).Taken Q := by
  induction m, host using Machine.runFrame.induct
  case case1 m host hlt next he hi =>
    rw [runFrame_of_step_ok hlt (Option.isNone_iff_eq_none.mp he)]
    exact hi (h.step hlt) (h.step_taken hl hs hq).host
  case case2 m host hlt next he =>
    rw [runFrame_of_step_error hlt (by simpa using he)]
    exact h.step_taken hl hs hq
  case case3 m host hlt =>
    rw [runFrame_of_le (Nat.le_of_not_lt hlt)]
    exact ⟨hq, .inl rfl⟩

end Orderly
end Machine
end DotMatrix
