import DotMatrix.Proofs.Cpu.Cost
import DotMatrix.Proofs.Machine.Idle
import DotMatrix.Proofs.Machine.Time
import DotMatrix.Proofs.Video.Showing

namespace DotMatrix

open Video Sound

namespace Watched

variable {η : Type} [LineSink η] [SampleSink η] {before : List HostCall}

-- The same host, asked for some things before it was watched.
structure After (before : List HostCall) (x y : Watched η) : Prop where
  host  : x.host = y.host
  calls : x.calls = before ++ y.calls

omit [SampleSink η] in
theorem drawAlike_after : DrawAlike (After before : Watched η → Watched η → Prop) := by
  intro x y h n pixels
  constructor
  case host  => simp only [LineSink.draw, h.host]
  case calls => simp only [LineSink.draw, h.calls, List.append_assoc]

omit [LineSink η] in
theorem queueAlike_after : QueueAlike (After before : Watched η → Watched η → Prop) := by
  intro x y h frames
  constructor
  case host  => simp only [SampleSink.queue, h.host]
  case calls => simp only [SampleSink.queue, h.calls, List.append_assoc]

end Watched

namespace Machine

variable {η : Type} [LineSink η] [SampleSink η] {m : Machine}

-- What a host has been asked for stays on its list.
theorem calls_step (m : Machine) (host : Watched η) : host.calls <+: (m.step host).host.calls := by
  have h : host.After host.calls (.of host.host) := ⟨rfl, (List.append_nil _).symm⟩
  have h := (m.step_alike Watched.drawAlike_after Watched.queueAlike_after h).host
  exact ⟨_, h.calls.symm⟩

-- A frame ends with the first step that comes to its last tick or beyond.
theorem runFrame_elapsed {host : η} (hd : 4 ∣ m.elapsed) (hl : m.elapsed ≤ Clock.ticksPerFrame + 20)
    (he : (m.runFrame host).error = none) :
    4 ∣ (m.runFrame host).machine.elapsed ∧ (m.runFrame host).machine.elapsed ≤ 20 := by
  have hf : 4 ∣ Clock.ticksPerFrame := by decide
  induction m, host using runFrame.induct
  case case1 m host hlt next hn hi =>
    have hn : (m.step host).error = none := Option.isNone_iff_eq_none.mp hn
    rw [runFrame_of_step_ok hlt hn] at he ⊢
    cases hc : m.core.step
    case mk r core =>
      cases r
      case error => simp [step_of_illegal hc] at hn
      case ok ticks =>
        obtain ⟨hcd, hcl⟩ := Core.step_cost hc
        have hs : next.machine.elapsed = m.elapsed + ticks := by
          simp only [next, step_of_ok hc]
        exact hi (by omega) (by omega) he
  case case2 m host hlt next hn =>
    have hn : (m.step host).error ≠ none := by simpa using hn
    exact absurd (runFrame_of_step_error hlt hn ▸ he) hn
  case case3 m host hlt =>
    rw [runFrame_of_le (Nat.le_of_not_lt hlt)]
    exact ⟨Nat.dvd_sub hd hf, Nat.sub_le_iff_le_add'.mpr hl⟩

namespace Moment

-- The lists of an earlier moment begin those of a later one.
structure Grows (s t : Moment (Watched η)) : Prop where
  calls  : s.host.calls <+: t.host.calls
  writes : s.writes <+: t.writes
  errors : s.errors <+: t.errors

omit [LineSink η] [SampleSink η] in
theorem Grows.refl (s : Moment (Watched η)) : s.Grows s where
  calls  := List.prefix_rfl
  writes := List.prefix_rfl
  errors := List.prefix_rfl

theorem invariant_grows (s : Moment (Watched η)) : Invariant s.Grows where
  hold h _ _ := ⟨h.calls, h.writes, h.errors⟩
  turn {t} h _ := ⟨t.turn_tally ▸ h.calls, h.writes, h.errors⟩
  step {t} h := {
    calls  := t.step_host ▸ h.calls.trans (t.machine.calls_step t.host)
    writes := h.writes.trans (List.prefix_append ..)
    errors := h.errors.trans (List.prefix_append ..) }

-- The moment lies at the beginning of a frame, up to what the last one has carried over.
structure Aligned (s : Moment η) : Prop where
  whole : 4 ∣ s.machine.elapsed
  small : s.machine.elapsed ≤ 20

omit [LineSink η] [SampleSink η] in
theorem Aligned.frame_start {s : Moment (Watched η)} (ha : s.Aligned)
    (hf : s.ticks = s.machine.elapsed + Clock.ticksPerFrame * s.frames)
    (hr : OnRaster Showing.Counted s.toTally s.machine.core.bus) :
    s.machine.core.bus.ppu.ly = 0 ∧
    s.machine.core.bus.ppu.mode = .oamScan ∧
    Showing.Counted s.host (Clock.visibleLines * s.frames) ∧
    s.vblanks = s.frames := by
  have ⟨lines, hr, hc⟩ := hr
  have hl : s.machine.elapsed < 80 := Nat.lt_of_le_of_lt ha.small (by decide)
  have ⟨hy, hm, hn, hv⟩ := hr.frame_start (hf.trans (Nat.add_comm ..)) hl
  exact ⟨hy, hm, hn ▸ hc, hv⟩

end Moment

namespace History

variable {h : History (Watched η)}

theorem calls_grows (h : History (Watched η)) (cs : List Call) : h.now.Grows (h.calls cs).now :=
  (Since.start (.refl _)).calls (Moment.invariant_grows _) cs |>.now

-- A frame without an error leaves no more than the next one can bear.
theorem aligned_runFrame (ha : h.now.Aligned) (he : h.runFrame.now.errors = []) :
    h.runFrame.now.Aligned ∧ h.runFrame.now.frames = h.now.frames + 1 := by
  have ⟨hm, _, her, hf⟩ := h.runFrame_now
  have hn : (h.now.machine.runFrame h.now.host).error = none := by
    rw [her, List.append_eq_nil_iff] at he
    simpa using he.right
  have ⟨hd, hl⟩ := runFrame_elapsed ha.whole (Nat.le_trans ha.small (Nat.le_add_left ..)) hn
  rw [hn, if_pos rfl] at hf
  exact ⟨⟨hm ▸ hd, hm ▸ hl⟩, hf⟩

end History

omit [LineSink η] [SampleSink η] in
-- The lines between two counts that are a frame apart.
theorem lines_of_frame {before after : Watched η} {frames : Nat}
    (hb : Showing.Counted before (Clock.visibleLines * frames))
    (ha : Showing.Counted after (Clock.visibleLines * (frames + 1)))
    (hg : before.calls <+: after.calls) :
    ∃ drawn, after.lines = before.lines ++ drawn ∧
      drawn.map Prod.fst = List.range Clock.visibleLines := by
  have hp : before.lines <+: after.lines := hg.filterMap _
  have ⟨drawn, hd⟩ := hp
  have hm : (List.range Clock.visibleLines).map
      ((· % Clock.visibleLines) ∘ (Clock.visibleLines * frames + ·)) =
      (List.range Clock.visibleLines).map id := by
    apply List.map_congr_left
    intro i hi
    exact (Nat.mul_add_mod ..).trans (Nat.mod_eq_of_lt (List.mem_range.mp hi))
  rw [Showing.Counted, ← hd, List.map_append, hb, Nat.mul_succ, List.range_add, List.map_append,
    List.map_map] at ha
  exact ⟨drawn, hd.symm, (List.append_cancel_left ha).trans (hm.trans (List.map_id _))⟩

theorem invariant_picture :
    Tally.Invariant KeepsScreen (OnRaster (Showing.Counted : Watched η → Nat → Prop)) :=
  invariant_raster Showing.counts_counted fun h buffer =>
    (congrArg (List.map Prod.fst) (Watched.lines_queue _ buffer)).trans h

-- What is known of all moments, together with the alignment of this one.
structure Moment.Tracked (s : Moment (Watched η)) : Prop where
  aligned : s.Aligned
  frames  : s.ticks = s.machine.elapsed + Clock.ticksPerFrame * s.frames
  raster  : (∀ w ∈ s.writes, KeepsScreen w) →
    OnRaster Showing.Counted s.toTally s.machine.core.bus

omit [LineSink η] [SampleSink η] in
theorem Moment.Tracked.hold {s : Moment (Watched η)} (hs : s.Tracked) (directions actions : UInt8) :
    (s.hold directions actions).Tracked :=
  ⟨⟨hs.aligned.whole, hs.aligned.small⟩, hs.frames, hs.raster⟩

-- A frame without an error leads to a moment of this kind again.
theorem Moment.Tracked.next {h : History (Watched η)} (hs : h.now.Tracked)
    (he : h.runFrame.now.errors = []) :
    h.runFrame.now.Tracked ∧ h.runFrame.now.frames = h.now.frames + 1 := by
  have ⟨ha, hn⟩ := History.aligned_runFrame hs.aligned he
  have hf := (History.Since.start hs.frames).runFrame invariant_frames |>.now
  have hr := (History.Since.start hs.raster).runFrame invariant_picture.moment |>.now
  exact ⟨⟨ha, hf, hr⟩, hn⟩

-- One frame, from an aligned moment to the next.
theorem Moment.Tracked.runFrame {h : History (Watched η)} (hs : h.now.Tracked)
    (he : h.runFrame.now.errors = []) (hw : ∀ w ∈ h.runFrame.now.writes, KeepsScreen w) :
    let s := h.now
    let t := h.runFrame.now
    (∃ drawn, t.host.lines = s.host.lines ++ drawn ∧
      drawn.map Prod.fst = List.range Clock.visibleLines) ∧
    t.vblanks = s.vblanks + 1 ∧
    t.machine.core.bus.ppu.ly = 0 ∧
    t.machine.core.bus.ppu.mode = .oamScan ∧
    t.machine.elapsed ≤ 20 := by
  have hg : h.now.Grows h.runFrame.now := h.calls_grows [.runFrame]
  have ⟨ht, hn⟩ := hs.next he
  have ⟨_, _, hcs, hvs⟩ := hs.aligned.frame_start hs.frames
    (hs.raster fun w hm => hw w (hg.writes.subset hm))
  have ⟨hly, hm, hct, hvt⟩ := ht.aligned.frame_start ht.frames (ht.raster hw)
  refine ⟨lines_of_frame hcs (hn ▸ hct) hg.calls, ?_, hly, hm, ht.aligned.small⟩
  exact hvt.trans (hn.trans (congrArg (· + 1) hvs.symm))

end Machine
end DotMatrix
