import DotMatrix.Proofs.Timer.Reload

namespace DotMatrix.Timer

-- The increments that the counter made on the way from one timer to the next, told from where it
-- was, where it is, and how often it has reloaded meanwhile.
def incrementsTo (t next : Timer) (overflows : Nat) : Nat :=
  if overflows = 0 then next.tima.toNat - t.tima.toNat
  else 256 - t.tima.toNat + (overflows - 1) * (256 - t.tma.toNat) +
    (next.tima.toNat - t.tma.toNat)

def increments (t : Timer) (ticks : Nat) : Nat :=
  t.incrementsTo (t.advance ticks).snd (t.advance ticks).fst

-- The timers that come from a fresh one, if the control register is written in some ways only.
inductive Reached (W : Timer → UInt8 → Prop) : Timer → Prop
  | powerOn : Reached W {}
  | advance {t : Timer} (ticks : Nat) : Reached W t → Reached W (t.advance ticks).snd
  | setControl {t : Timer} {v : UInt8} : Reached W t → W t v → Reached W (t.setControl v)
  | setTima {t : Timer} (v : UInt8) : Reached W t → Reached W (t.setTima v)
  | setTma {t : Timer} (v : UInt8) : Reached W t → Reached W (t.setTma v)
  | resetDiv {t : Timer} : Reached W t → Reached W t.resetDiv

def Reachable (t : Timer) : Prop := Reached (fun _ _ => True) t

-- The write selects a period longer than the time since the last increment.
def KeepsPace (t : Timer) (v : UInt8) : Prop := t.timaTicks.elapsed < period v

instance (t : Timer) (v : UInt8) : Decidable (t.KeepsPace v) :=
  inferInstanceAs (Decidable (_ < _))

variable {t : Timer} {W : Timer → UInt8 → Prop}

theorem period_pos (tac : UInt8) : 0 < period tac := by
  simp only [period]
  split <;> decide

-- The period is told by bits that the register keeps.
theorem period_and (v : UInt8) : period (v &&& 0x7) = period v := by
  have hb : bitField (v &&& 0x7) 0 2 = bitField v 0 2 := by
    have hm : v.toNat &&& 7 = v.toNat % 8 := Nat.and_two_pow_sub_one_eq_mod v.toNat 3
    have h4 : (1 <<< 2 : Nat) = 4 := rfl
    simp only [bitField, Nat.shiftRight_zero, UInt8.toNat_and]
    rw [h4]
    exact hm ▸ Nat.mod_mod_of_dvd _ (by decide)
  rw [period, hb]
  rfl

theorem advance_tac (t : Timer) (ticks : Nat) : (t.advance ticks).snd.tac = t.tac := by
  simp only [advance]
  split <;> rfl

-- Only a running counter collects ticks.
theorem timaTicks_advance (t : Timer) (ticks : Nat) : (t.advance ticks).snd.timaTicks =
    if t.running then (t.timaTicks.run ticks).snd else t.timaTicks := by
  by_cases h : t.running
  case pos => rw [advance_of_running h, if_pos h]
  case neg => rw [advance_of_not_running h, if_neg h]

theorem Reached.period_eq (h : Reached W t) : t.timaTicks.period = period t.tac := by
  induction h with
  | powerOn => rfl
  | advance ticks h ih =>
    rw [advance_tac, timaTicks_advance, ← ih]
    split
    · rw [Counter.run_eq_div_mod]
    · rfl
  | setControl                   => exact (period_and _).symm
  | setTima _ _ ih               => exact ih
  | setTma _ _ ih                => exact ih
  | resetDiv _ ih                => exact ih

theorem Reached.reachable (h : Reached W t) : t.Reachable := by
  induction h with
  | powerOn                  => exact .powerOn
  | advance ticks _ ih       => exact .advance ticks ih
  | setControl _ _ ih        => exact .setControl ih trivial
  | setTima v _ ih           => exact .setTima v ih
  | setTma v _ ih            => exact .setTma v ih
  | resetDiv _ ih            => exact .resetDiv ih

-- No increment is ever due, if every period that is selected is longer than the time so far.
theorem elapsed_lt_of_keepsPace (h : Reached KeepsPace t) : t.timaTicks.elapsed < period t.tac := by
  induction h with
  | powerOn => decide
  | @advance t ticks h ih =>
    rw [advance_tac, timaTicks_advance]
    split
    · rw [Counter.run_eq_div_mod, h.period_eq]
      exact Nat.mod_lt _ (period_pos _)
    · exact ih
  | setControl _ hw _ => exact Nat.lt_of_lt_of_eq hw (period_and _).symm
  | setTima _ _ ih    => exact ih
  | setTma _ _ ih     => exact ih
  | resetDiv          => exact period_pos _

-- What the registers and the overflows tell is right.
theorem Counted.incrementsTo {n : Nat} {s : Nat × UInt8} (h : Counted t.tma t.tima n s)
    {next : Timer} (hs : next.tima = s.snd) : t.incrementsTo next s.fst = n := by
  rw [Timer.incrementsTo, hs]
  cases h
  case below place          => exact Nat.sub_eq_of_eq_add' place
  case reloaded above place =>
    have ht : t.tima.toNat < 256 := t.tima.toNat_lt
    rw [if_neg (Nat.succ_ne_zero _), Nat.add_sub_cancel]
    simp only
    omega

theorem increments_eq (h : t.running) (ticks : Nat) :
    t.increments ticks = (t.timaTicks.elapsed + ticks) / t.timaTicks.period := by
  have hc := Counted.of_repeat t.tma t.tima (t.timaTicks.run ticks).fst
  rw [increments, advance_of_running h]
  exact (hc.incrementsTo rfl).trans (congrArg Prod.fst (t.timaTicks.run_eq_div_mod ticks))

-- In some time a running counter makes an increment for each period that its ticks fill, those that
-- it had before included. These are the periods that complete in that time, and no more than it has
-- room for, exactly if no period was full before. So it is from the first time on that the counter
-- runs, as long as no write to the control register cuts short what was collected.
theorem increments_of_reachable (hr : t.Reachable) (h : t.running) (ticks : Nat) :
    let c := t.timaTicks.elapsed
    let p := period t.tac
    t.increments ticks = (c + ticks) / p ∧
    (t.increments ticks = (c + ticks) / p - c / p ↔ c < p) ∧
    (c < p → t.increments ticks ≤ (ticks + (p - 1)) / p) ∧
    (t.advance ticks).snd.timaTicks.elapsed < p ∧
    (Reached KeepsPace t → c < p) := by
  intro c p
  have hp : 0 < p := period_pos t.tac
  have hn : t.increments ticks = (c + ticks) / p := by rw [increments_eq h, hr.period_eq]
  refine ⟨hn, ?law, fun hc => ?room, ?after, elapsed_lt_of_keepsPace⟩
  case law =>
    have hl : c / p ≤ (c + ticks) / p := Nat.div_le_div_right (Nat.le_add_right ..)
    rw [hn, ← Nat.div_eq_zero_iff_lt hp]
    omega
  case room =>
    rw [hn]
    exact Nat.div_le_div_right (by omega)
  case after =>
    rw [timaTicks_advance, if_pos h, Counter.run_eq_div_mod, hr.period_eq]
    exact Nat.mod_lt _ hp

-- Half a period of the fastest rate is left over, and counts towards the next one.
theorem increments_of_reachable_fastest :
    let t := ((setControl {} 5).advance 1000).snd
    t.Reachable ∧ t.running ∧ t.increments 40 = 3 := by
  intro t
  have hk : Reached KeepsPace t := .advance 1000 (.setControl .powerOn (by decide))
  have hr : t.running := (congrArg (testBit · 2) (advance_tac ..)).trans (by decide)
  have he : t.timaTicks.elapsed = 8 := by
    rw [timaTicks_advance, if_pos (by decide), Counter.run_eq_div_mod]
    rfl
  have ht : period t.tac = 16 := (congrArg period (advance_tac ..)).trans (by decide)
  obtain ⟨hn, -⟩ := increments_of_reachable hk.reachable hr 40
  exact ⟨hk.reachable, hr, by rw [hn, he, ht]⟩

-- A thousand ticks that were collected at the slowest rate are sixty-two periods of the fastest one,
-- which the counter makes up for in the next four ticks.
theorem increments_after_shortened_period :
    let t := ((setControl {} 4).advance 1000).snd.setControl 5
    t.Reachable ∧ t.running ∧ t.increments 4 = 62 ∧
    (t.timaTicks.elapsed + 4) / period t.tac - t.timaTicks.elapsed / period t.tac = 0 := by
  intro t
  have hk : t.Reachable := .setControl (.advance 1000 (.setControl .powerOn trivial)) trivial
  have hr : t.running := by decide
  have he : t.timaTicks = { elapsed := 1000, period := 16 } := by
    have hs := timaTicks_advance (setControl {} 4) 1000
    rw [if_pos (by decide), Counter.run_eq_div_mod] at hs
    exact congrArg (Counter.rearm · 16) hs
  have ht : period t.tac = 16 := by decide
  exact ⟨hk, hr, by simp [increments_eq hr, he], by simp [he, ht]⟩

end DotMatrix.Timer
