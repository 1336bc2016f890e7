import DotMatrix.Proofs.Counter
import DotMatrix.Timer

namespace DotMatrix.Timer

-- The divider and its counter are where some ticks from zero take them.
structure Divides (t : Timer) (ticks : Nat) : Prop where
  div      : t.div = UInt8.ofNat (ticks / 256)
  divTicks : t.divTicks = { elapsed := ticks % 256, period := 256 }

variable {t : Timer} {ticks : Nat}

theorem Divides.start : Divides {} 0 :=
  ⟨by decide, by decide⟩

theorem div_advance (t : Timer) (n : Nat) :
    (t.advance n).snd.div = t.div + UInt8.ofNat (t.divTicks.run n).fst := by
  simp only [advance]
  split <;> rfl

theorem divTicks_advance (t : Timer) (n : Nat) :
    (t.advance n).snd.divTicks = (t.divTicks.run n).snd := by
  simp only [advance]
  split <;> rfl

theorem Divides.advance (h : t.Divides ticks) (n : Nat) :
    (t.advance n).snd.Divides (ticks + n) := by
  have hr := Counter.run_of_elapsed_mod (by decide) h.divTicks n
  have hl : ticks / 256 ≤ (ticks + n) / 256 := Nat.div_le_div_right (Nat.le_add_right ..)
  constructor
  case div      => rw [div_advance, hr, h.div, ← UInt8.ofNat_add, Nat.add_sub_cancel' hl]
  case divTicks => rw [divTicks_advance, hr]

end DotMatrix.Timer
