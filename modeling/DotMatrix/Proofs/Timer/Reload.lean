import Mathlib.Algebra.Ring.Nat
import DotMatrix.Proofs.Timer

namespace DotMatrix.Timer

-- The timer after some stretches of time, with the interrupts that it requested in all of them.
def advances (t : Timer) : List Nat → Nat × Timer
  | []      => (0, t)
  | n :: ns =>
    let (first, t)  := t.advance n
    let (others, t) := t.advances ns
    (first + others, t)

variable {t : Timer} {tma start : UInt8} {n k : Nat} {s : Nat × UInt8}

-- Where some increments lead from a start: to a number of overflows, and to a place below the first
-- of them or else at or above the value that was reloaded.
inductive Counted (tma start : UInt8) (n : Nat) : Nat × UInt8 → Prop
  | below {tima : UInt8} (place : tima.toNat = start.toNat + n) : Counted tma start n (0, tima)
  | reloaded {laps : Nat} {tima : UInt8} (above : tma.toNat ≤ tima.toNat)
    (place : start.toNat + n = 256 + laps * (256 - tma.toNat) + (tima.toNat - tma.toNat)) :
    Counted tma start n (laps + 1, tima)

theorem toNat_add_one {v : UInt8} (h : v ≠ 0xff) : (v + 1).toNat = v.toNat + 1 := by
  have hv : v.toNat ≠ 255 := fun hv => h (UInt8.toNat_inj.mp hv)
  have := v.toNat_lt
  have hl : v.toNat + 1 < 256 := by omega
  exact (UInt8.toNat_add v 1).trans (Nat.mod_eq_of_lt hl)

namespace Counted

theorem increment (h : Counted tma start n s) : Counted tma start (n + 1) (increment tma s) := by
  have hm : (0xff : UInt8).toNat = 255 := rfl
  cases h
  case below tima place =>
    simp only [Timer.increment]
    split
    case isTrue ho =>
      subst ho
      have hp : start.toNat + (n + 1) = 256 + 0 * (256 - tma.toNat) + (tma.toNat - tma.toNat) := by
        omega
      exact .reloaded (Nat.le_refl _) hp
    case isFalse ho =>
      exact .below (by rw [toNat_add_one ho]; omega)
  case reloaded laps tima above place =>
    simp only [Timer.increment]
    split
    case isTrue ho =>
      subst ho
      exact .reloaded (Nat.le_refl _) (by rw [Nat.succ_mul]; omega)
    case isFalse ho =>
      have hs := toNat_add_one ho
      exact .reloaded (by omega) (by omega)

theorem of_repeat (tma start : UInt8) (n : Nat) :
    Counted tma start n (Nat.repeat (Timer.increment tma) n (0, start)) := by
  induction n with
  | zero      => exact .below rfl
  | succ n ih => exact ih.increment

theorem of_lt (h : Counted tma start n s) (hl : start.toNat + n < 256) :
    s.snd.toNat = start.toNat + n ∧ s.fst = 0 := by
  cases h
  case below place          => exact ⟨place, rfl⟩
  case reloaded above place => omega

-- The laps are the quotient of what comes after the first overflow, and the place is the rest.
theorem of_le (h : Counted tma start n s) (hl : 256 ≤ start.toNat + n) :
    s.snd.toNat = tma.toNat + (start.toNat + n - 256) % (256 - tma.toNat) ∧
    s.fst = 1 + (start.toNat + n - 256) / (256 - tma.toNat) := by
  cases h
  case below tima place =>
    have := tima.toNat_lt
    omega
  case reloaded laps tima above place =>
    have ht : tima.toNat < 256 := tima.toNat_lt
    have hr : tima.toNat - tma.toNat < 256 - tma.toNat := by omega
    have hs : start.toNat + n - 256 =
        (tima.toNat - tma.toNat) + laps * (256 - tma.toNat) := by omega
    have hp : 0 < 256 - tma.toNat := Nat.zero_lt_of_lt hr
    rw [hs, Nat.add_mul_div_right _ _ hp, Nat.add_mul_mod_self_right, Nat.div_eq_of_lt hr,
      Nat.mod_eq_of_lt hr, Nat.zero_add, Nat.add_comm 1]
    exact ⟨(Nat.add_sub_cancel' above).symm, rfl⟩

end Counted

-- The overflows so far do not matter to the next ones.
theorem increment_add (tma : UInt8) (k : Nat) (s : Nat × UInt8) :
    increment tma (k + s.fst, s.snd) = (k + (increment tma s).fst, (increment tma s).snd) := by
  simp only [increment]
  split <;> rfl

theorem repeat_increment_add (tma : UInt8) (m n : Nat) (tima : UInt8) :
    let r := Nat.repeat (increment tma) m (0, tima)
    let q := Nat.repeat (increment tma) n (0, r.snd)
    Nat.repeat (increment tma) (m + n) (0, tima) = (r.fst + q.fst, q.snd) := by
  intro r q
  induction n with
  | zero      => rfl
  | succ n ih =>
    rw [← Nat.add_assoc, Nat.repeat, ih]
    exact increment_add tma r.fst _

theorem advance_of_running (h : t.running) (n : Nat) : t.advance n =
    let r := Nat.repeat (increment t.tma) (t.timaTicks.run n).fst (0, t.tima)
    (r.fst, { t with
      div       := t.div + UInt8.ofNat (t.divTicks.run n).fst
      divTicks  := (t.divTicks.run n).snd
      tima      := r.snd
      timaTicks := (t.timaTicks.run n).snd }) :=
  if_pos h

theorem advance_of_not_running (h : ¬t.running) (n : Nat) : t.advance n =
    (0, { t with
      div      := t.div + UInt8.ofNat (t.divTicks.run n).fst
      divTicks := (t.divTicks.run n).snd }) :=
  if_neg h

-- Time may pass in one go or in two.
theorem advance_add (t : Timer) (m n : Nat) :
    let first := t.advance m
    let second := first.snd.advance n
    t.advance (m + n) = (first.fst + second.fst, second.snd) := by
  intro first second
  by_cases h : t.running
  case pos =>
    have hf : first = _ := advance_of_running h m
    have hs : second = _ := advance_of_running (hf ▸ h) n
    rw [advance_of_running h, hs, hf]
    simp only [Counter.run_add, UInt8.ofNat_add, UInt8.add_assoc, repeat_increment_add]
  case neg =>
    have hf : first = _ := advance_of_not_running h m
    have hs : second = _ := advance_of_not_running (hf ▸ h) n
    rw [advance_of_not_running h, hs, hf]
    simp only [Counter.run_add, UInt8.ofNat_add, UInt8.add_assoc]

theorem advances_cons (t : Timer) (n : Nat) (ns : List Nat) :
    let first := t.advance n
    let others := first.snd.advances ns
    t.advances (n :: ns) = (first.fst + others.fst, others.snd) :=
  rfl

-- Any division of some time will do.
theorem advances_eq_advance (t : Timer) {ns : List Nat} (h : ns ≠ []) :
    t.advances ns = t.advance ns.sum := by
  induction ns generalizing t with
  | nil => exact absurd rfl h
  | cons n ns ih =>
    cases ns with
    | nil => rw [advances_cons, List.sum_singleton]; rfl
    | cons n' ns =>
      have ho := ih (t.advance n).snd (List.cons_ne_nil n' ns)
      rw [advances_cons, ho]
      exact (t.advance_add n _).symm

theorem toNat_add_ofNat (v : UInt8) (n : Nat) :
    (v + UInt8.ofNat n).toNat = (v.toNat + n) % 256 := by
  rw [UInt8.toNat_add, UInt8.toNat_ofNat', Nat.add_mod_mod]

-- The divider and the counter after any stretches of time, however they divide it: they have gone up
-- by the periods in it, and by those alone that completed. From its first overflow on the counter
-- goes round between the value it reloads and the next overflow, and requests an interrupt each time.
theorem advances_eq (t : Timer) (hd : t.divTicks.period = 256) {ns : List Nat} (hn : ns ≠ []) :
    let r := t.advances ns
    let divTotal := t.divTicks.elapsed + ns.sum
    let total := t.timaTicks.elapsed + ns.sum
    let place := t.tima.toNat + total / t.timaTicks.period
    let lap := 256 - t.tma.toNat
    r.snd.div.toNat = (t.div.toNat + divTotal / 256) % 256 ∧
    r.snd.divTicks = { elapsed := divTotal % 256, period := 256 } ∧
    r.snd.tma = t.tma ∧ r.snd.tac = t.tac ∧
    (t.running →
      r.snd.timaTicks =
        { elapsed := total % t.timaTicks.period, period := t.timaTicks.period } ∧
      (place < 256 → r.snd.tima.toNat = place ∧ r.fst = 0) ∧
      (256 ≤ place → r.snd.tima.toNat = t.tma.toNat + (place - 256) % lap ∧
        r.fst = 1 + (place - 256) / lap)) ∧
    (¬t.running → r.snd.timaTicks = t.timaTicks ∧ r.snd.tima = t.tima ∧ r.fst = 0) := by
  intro r divTotal total place lap
  have hr : r = t.advance ns.sum := t.advances_eq_advance hn
  have hc := Counter.run_eq_div_mod t.timaTicks ns.sum
  have hdc := Counter.run_eq_div_mod t.divTicks ns.sum
  rw [hd] at hdc
  have hdiv : r.snd.div.toNat = (t.div.toNat + divTotal / 256) % 256 := by
    rw [hr, div_advance, hdc, toNat_add_ofNat]
  have hticks : r.snd.divTicks = { elapsed := divTotal % 256, period := 256 } := by
    rw [hr, divTicks_advance, hdc]
  cases h : t.running
  case true =>
    have ha := hr.trans (t.advance_of_running h ns.sum)
    rw [hc] at ha
    have hp := Counted.of_repeat t.tma t.tima (total / t.timaTicks.period)
    refine ⟨hdiv, hticks, by rw [ha], by rw [ha], fun _ => ⟨by rw [ha], ?below, ?beyond⟩, nofun⟩
    case below  => exact fun hl => ha ▸ hp.of_lt hl
    case beyond => exact fun hl => ha ▸ hp.of_le hl
  case false =>
    have ha := hr.trans (t.advance_of_not_running (by simp [h]) ns.sum)
    rw [ha] at hdiv hticks ⊢
    exact ⟨hdiv, hticks, rfl, rfl, nofun, fun _ => ⟨rfl, rfl, rfl⟩⟩

-- A timer whose counter is far behind, and has laps of two increments.
def lagging : Timer where
  tima      := 0x90
  tma       := 0xfe
  tac       := 5
  timaTicks := { elapsed := 1000, period := 16 }

theorem advances_eq_lagging :
    let r := lagging.advances [1500, 0, 524]
    lagging.divTicks.period = 256 ∧ [1500, 0, 524] ≠ [] ∧
    r.snd.div.toNat = 7 ∧ r.snd.tima.toNat = 0xff ∧ r.fst = 39 := by
  intro r
  have hd : lagging.divTicks.period = 256 := rfl
  have hn : [1500, 0, 524] ≠ [] := List.cons_ne_nil _ _
  obtain ⟨hdiv, -, -, -, hr, -⟩ := advances_eq lagging hd hn
  obtain ⟨-, -, hb⟩ := hr (by decide)
  obtain ⟨htima, hover⟩ := hb (by decide)
  exact ⟨hd, hn, hdiv.trans (by decide), htima.trans (by decide), hover.trans (by decide)⟩

end DotMatrix.Timer
