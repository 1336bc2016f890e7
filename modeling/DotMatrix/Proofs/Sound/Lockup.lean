import DotMatrix.Proofs.Sound.Readback
import DotMatrix.Proofs.Sound.ShiftRegister

namespace DotMatrix

namespace Sound

theorem Noise.shortMode_clock (n : Noise) (ticks : Nat) :
    (n.clock ticks).shortMode = n.shortMode := by
  obtain ⟨_, _, _, _, _, h⟩ := n.clock_eq ticks
  rw [h]
  rfl

-- The event gives the shift register of the noise channel its first state.
def Event.reseeds (e : Event) : Bool :=
  e.switchesOff || (e.valueAt? 0x23).any Control.triggers

end Sound

open Sound

namespace Apu

-- The shifts that some events bring about, each by its mode.
def shifts (s : Apu) : List Event → List Bool
  | []                   => []
  | .advance ticks :: es =>
    (if s.enabled then s.ch4.shiftsIn ticks else []) ++ (s.advance ticks).snd.shifts es
  | .write low v :: es   => (s.write low v).shifts es

variable {s : Apu} {es : List Event} {low v : UInt8} {ticks : Nat}

theorem ch4_advance (s : Apu) (ticks : Nat) :
    (s.advance ticks).snd.ch4 = if s.enabled then s.ch4.clock ticks else s.ch4 := by
  simp only [advance]
  split <;> rfl

theorem write_seeded (hp : s.enabled) (hr : ¬(Event.write low v).reseeds) :
    (s.write low v).enabled ∧ (s.write low v).ch4.lfsr = s.ch4.lfsr ∧
    (s.write low v).ch4.shortMode = if low = 0x22 then testBit v 3 else s.ch4.shortMode := by
  obtain ⟨rfl, hw⟩ | ⟨i, rfl, hw⟩ | ⟨q, -, hq, rfl, hw⟩ | ⟨hl, hw⟩ := s.write_cases low v
  · have hv : testBit v 7 = true := by
      simpa [Event.reseeds, Event.switchesOff, Event.valueAt?] using hr
    rw [hw, hv, setPower, Bool.not_true, Bool.and_false]
    exact ⟨rfl, rfl, rfl⟩
  · have hn : (Sound.Register.wave i).low ≠ 0x22 :=
      fun h => by cases (Sound.Register.low_inj (r := .nr43)).mp h
    rw [hw, if_neg hn]
    exact ⟨hp, rfl, rfl⟩
  · rw [hw, if_pos hp]
    refine ⟨(s.writePowered_enabled q v).trans hp, ?_⟩
    cases q
    case nr44 =>
      have hv : ¬Control.triggers v := by
        simpa [Event.reseeds, Event.switchesOff, Event.valueAt?, Sound.Register.low] using hr
      simp only [writePowered, Noise.setControl, hv]
      exact ⟨rfl, rfl⟩
    case wave i => exact absurd rfl (hq i)
    all_goals exact ⟨rfl, rfl⟩
  · have hn : low ≠ 0x22 := hl .nr43
    rw [hw, if_neg hn]
    exact ⟨hp, rfl, rfl⟩

-- The state of the shift register is told by its shifts.
theorem run_seeded (hp : s.enabled) (hr : ∀ e ∈ es, ¬e.reseeds) :
    (s.run es).enabled ∧ (s.run es).ch4.lfsr = s.ch4.lfsr.walk (s.shifts es) := by
  induction es generalizing s with
  | nil => exact ⟨hp, rfl⟩
  | cons e es ih =>
    obtain ⟨he, hes⟩ := List.forall_mem_cons.mp hr
    cases e
    case advance ticks =>
      have hs := ih ((s.advance_enabled ticks).trans hp) hes
      rw [ch4_advance, if_pos hp, Noise.lfsr_clock, ← Lfsr.walk_append] at hs
      rw [shifts, if_pos hp]
      exact hs
    case write low v =>
      obtain ⟨hp', hl, -⟩ := write_seeded hp he
      have hs := ih hp' hes
      rw [hl] at hs
      exact hs

-- Nothing leads to zero but the next change of the mode.
def Awake (s : Apu) : Prop := s.ch4.lfsr.Awake s.ch4.shortMode

theorem Awake.advance (h : s.Awake) (ticks : Nat) : (s.advance ticks).snd.Awake := by
  rw [Awake, ch4_advance]
  split
  case isFalse => exact h
  case isTrue  =>
    rw [Noise.lfsr_clock, Noise.shortMode_clock, Noise.shiftsIn]
    split
    case isTrue  => exact Lfsr.Awake.walk_replicate h _
    case isFalse => exact h

theorem Awake.run (h : s.Awake) (hp : s.enabled) (hr : ∀ e ∈ es, ¬e.reseeds)
    (hw : ∀ before v after, es = before ++ .write 0x22 v :: after → testBit v 3 →
      ¬(s.run before).ch4.shortMode → (s.run before).ch4.lfsr.LowSet) : (s.run es).Awake := by
  induction es generalizing s with
  | nil => exact h
  | cons e es ih =>
    obtain ⟨he, hes⟩ := List.forall_mem_cons.mp hr
    have hws : ∀ before v after, es = before ++ .write 0x22 v :: after → testBit v 3 →
        ¬((s.follow e).run before).ch4.shortMode →
        ((s.follow e).run before).ch4.lfsr.LowSet :=
      fun before v after hb => hw (e :: before) v after (congrArg (e :: ·) hb)
    cases e
    case advance ticks => exact ih (h.advance ticks) ((s.advance_enabled ticks).trans hp) hes hws
    case write low v =>
      obtain ⟨hp', hl, hm⟩ := write_seeded hp he
      have ha : (s.write low v).Awake := by
        rw [Awake, hl, hm]
        refine ⟨h.le, h.ne_zero, fun hs => ?_⟩
        by_cases hc : s.ch4.shortMode
        case pos => exact h.low hc
        case neg =>
          split at hs
          case isTrue hl => exact hw [] v es (hl ▸ rfl) hs hc
          case isFalse   => exact absurd hs hc
      exact ih ha hp' hes hws

theorem ch4_write_clock (hp : s.enabled) : (s.write 0x22 v).ch4 = s.ch4.setClock v := by
  have hw : s.write 0x22 v = s.writePowered .nr43 v := if_pos hp
  rw [hw]
  rfl

theorem write_trigger (hp : s.enabled) (hv : Control.triggers v) :
    (s.write 0x23 v).enabled ∧ (s.write 0x23 v).ch4.lfsr = {} := by
  have hw : s.write 0x23 v = s.writePowered .nr44 v := if_pos hp
  rw [hw]
  simp only [writePowered, Noise.setControl, hv, if_true]
  exact ⟨hp, rfl⟩

-- From its trigger on the noise channel locks up with one kind of shift, and with no other. It does
-- not lock up if one of the seven low bits is set whenever the short mode is switched on. Once it
-- has locked up it stays so until the next trigger.
theorem noise_locks_iff (s : Apu) (v : UInt8) (es : List Event) (hp : s.enabled)
    (hv : Control.triggers v) (hr : ∀ e ∈ es, ¬e.reseeds) :
    let first := s.write 0x23 v
    let x := first.run es
    x.ch4.lfsr.bits ≤ 0x7fff ∧
    (x.ch4.lfsr.bits = 0 ↔ ∃ before after, first.shifts es = before ++ true :: after ∧
      (Lfsr.walk { bits := 0x7fff } before).bits = 0x80) ∧
    ((∀ before w after, es = before ++ .write 0x22 w :: after → testBit w 3 →
      ¬(first.run before).ch4.shortMode → (first.run before).ch4.lfsr.LowSet) →
      x.ch4.lfsr.bits ≠ 0) ∧
    (x.ch4.lfsr.bits = 0 → ∀ later : List Event, (∀ e ∈ later, ¬e.reseeds) →
      (x.run later).ch4.lfsr.bits = 0) := by
  intro first x
  obtain ⟨hp', h0⟩ := write_trigger hp hv
  obtain ⟨hp'', hx⟩ := run_seeded hp' hr
  rw [h0] at hx
  have ha : first.Awake := by
    rw [Awake, h0]
    exact ⟨by decide, by decide, fun _ => by decide⟩
  refine ⟨?_, ?_, fun hw => (ha.run hp' hr hw).ne_zero, fun hz later hl => ?_⟩
  · rw [hx]
    exact Lfsr.walk_le (UInt16.le_refl _) _
  · rw [hx]
    exact Lfsr.walk_eq_zero_iff (UInt16.le_refl _) (by decide)
  · rw [(run_seeded hp'' hl).right]
    exact Lfsr.walk_of_zero hz _

-- The short mode is switched on before the first shift, while all bits are set.
theorem noise_locks_iff_short :
    let es : List Event := [.write 0x22 0x08, .advance 100000]
    let x := ((postBoot {}).write 0x23 0x80).run es
    (postBoot {}).enabled ∧ Control.triggers 0x80 ∧ (∀ e ∈ es, ¬e.reseeds) ∧
    x.ch4.lfsr.bits ≤ 0x7fff ∧ x.ch4.lfsr.bits ≠ 0 := by
  intro es x
  have hp : (postBoot {}).enabled := rfl
  have hv : Control.triggers 0x80 := by decide
  have hr : ∀ e ∈ es, ¬e.reseeds := by decide
  obtain ⟨hle, -, hne, -⟩ := noise_locks_iff (postBoot {}) 0x80 es hp hv hr
  refine ⟨hp, hv, hr, hle, hne fun before w after he _ _ => ?_⟩
  obtain _ | ⟨e, _ | ⟨e', before⟩⟩ := before
  case nil => exact (by decide : ((postBoot {}).write 0x23 0x80).ch4.lfsr.LowSet)
  · simp [es] at he
  · simp [es] at he

-- Twenty-two shifts in the long mode leave bit 7 alone. The short mode is switched on, and the next
-- shift locks the channel up.
theorem width_change_locks :
    let first := (postBoot {}).write 0x23 0x80
    let es : List Event := [.write 0x22 0, .advance 176, .write 0x22 0x08, .advance 8]
    (postBoot {}).enabled ∧ Control.triggers 0x80 ∧
    (∀ e ∈ es, (∃ ticks, e = .advance ticks) ∨ ∃ v, e = .write 0x22 v) ∧
    (first.run es).ch4.lfsr.bits = 0 := by
  intro first es
  have ho : (first.write 0x22 0).enabled := rfl
  have h7 : ((first.write 0x22 0).advance 176).snd.ch4 =
      { first.ch4 with lfsr := { bits := 0x80 } } := by
    rw [ch4_advance, if_pos ho]
    simp only [Noise.clock, Counter.run_eq_div_mod]
    decide
  have hp : ((first.write 0x22 0).advance 176).snd.enabled := advance_enabled ..
  have hq : (((first.write 0x22 0).advance 176).snd.write 0x22 0x08).enabled :=
    (write_seeded hp (by decide)).left
  refine ⟨rfl, by decide, by simp [es], ?_⟩
  change ((((first.write 0x22 0).advance 176).snd.write 0x22 0x08).advance 8).snd.ch4.lfsr.bits = 0
  rw [ch4_advance, if_pos hq, ch4_write_clock hp, h7]
  simp only [Noise.clock, Counter.run_eq_div_mod]
  decide

end Apu
end DotMatrix
