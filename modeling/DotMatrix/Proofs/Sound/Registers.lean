import Mathlib.Data.FinEnum
import DotMatrix.Proofs.Memory
import DotMatrix.Sound.Mixer

namespace DotMatrix

namespace Sound

namespace Register

-- The low byte of the register's address.
def low : Register → UInt8
  | nr10   => 0x10
  | nr11   => 0x11
  | nr12   => 0x12
  | nr13   => 0x13
  | nr14   => 0x14
  | nr21   => 0x16
  | nr22   => 0x17
  | nr23   => 0x18
  | nr24   => 0x19
  | nr30   => 0x1a
  | nr31   => 0x1b
  | nr32   => 0x1c
  | nr33   => 0x1d
  | nr34   => 0x1e
  | nr41   => 0x20
  | nr42   => 0x21
  | nr43   => 0x22
  | nr44   => 0x23
  | nr50   => 0x24
  | nr51   => 0x25
  | nr52   => 0x26
  | wave i => 0x30 + .ofNat i

theorem ofLow?_low (r : Register) : ofLow? r.low = some r := by
  cases r
  case wave i => revert i; decide
  all_goals rfl

theorem low_of_ofLow? {low : UInt8} {r : Register} (h : ofLow? low = some r) : r.low = low := by
  have hl : ∀ low, (ofLow? low).all (·.low = low) := by decide +kernel
  simpa [h] using hl low

theorem ofLow?_eq_some_iff {low : UInt8} {r : Register} : ofLow? low = some r ↔ low = r.low where
  mp h  := (low_of_ofLow? h).symm
  mpr h := h ▸ r.ofLow?_low

theorem low_inj {q r : Register} : q.low = r.low ↔ q = r where
  mp h  := Option.some.inj (by rw [← q.ofLow?_low, h, r.ofLow?_low])
  mpr h := h ▸ rfl

theorem low_ne_master {r : Register} (h : r ≠ nr52) : r.low ≠ 0x26 :=
  fun hl => h (low_inj.mp hl)

-- The wave memory takes up the last sixteen addresses.
theorem exists_wave {low : UInt8} (h : 0x30 ≤ low) (h' : low ≤ 0x3f) :
    ∃ i, low = (wave i).low := by
  have hw : ∀ low : UInt8, 0x30 ≤ low → low ≤ 0x3f → ∃ i, low = (wave i).low := by decide +kernel
  exact hw low h h'

theorem wave_le (i : Fin 16) : 0x30 ≤ (wave i).low ∧ (wave i).low ≤ 0x3f := by
  revert i
  decide

end Register

-- The bits of a register that always read as ones, by the low byte of its address. The master
-- register tells of the channels; the registers that are left out cannot be read.
def readMask? : UInt8 → Option UInt8
  | 0x10                                    => some 0x80
  | 0x11 | 0x16                             => some 0x3f
  | 0x12 | 0x17 | 0x21 | 0x22 | 0x24 | 0x25 => some 0
  | 0x14 | 0x19 | 0x1e | 0x23               => some 0xbf
  | 0x1a                                    => some 0x7f
  | 0x1c                                    => some 0x9f
  | _                                       => none

theorem exists_of_readMask? {low mask : UInt8} (h : readMask? low = some mask) :
    ∃ r : Register, low = r.low := by
  have hr : ∀ low, (readMask? low).isSome → (Register.ofLow? low).isSome := by decide +kernel
  obtain ⟨r, hr⟩ := Option.isSome_iff_exists.mp (hr low (h ▸ rfl))
  exact ⟨r, Register.ofLow?_eq_some_iff.mp hr⟩

theorem readMask?_wave (i : Fin 16) : readMask? (Register.wave i).low = none := by
  revert i
  decide

theorem Control.shown_kept (b : UInt8) : shown (kept b) = 0xbf ||| b := by
  revert b
  decide +kernel

-- The frequency cannot be read.
theorem Control.shown_setFrequency (b : UInt8) (frequency : Nat) :
    shown (setFrequency b frequency) = shown b := by
  have h : ∀ (b : UInt8) (high : Fin 8), shown ((b &&& 0xf8) ||| .ofNat high) = shown b := by
    decide +kernel
  exact h b ⟨frequency / 0x100 % 8, Nat.mod_lt _ (by decide)⟩

section Channels

variable (ticks : Nat) (v : UInt8)

namespace Pulse

variable (p : Pulse)

theorem clock_eq : ∃ dutyStep t length envelope enabled,
    p.clock ticks = { p with dutyStep, ticks := t, length, envelope, enabled } := by
  simp only [clock]
  split
  · exact ⟨_, _, _, _, _, rfl⟩
  · exact ⟨_, _, _, _, _, rfl⟩

theorem setControl_eq : ∃ t length envelope enabled, p.setControl v =
    { p with nrx4 := Control.kept v, ticks := t, length, envelope, enabled } := by
  simp only [setControl]
  split
  · exact ⟨_, _, _, _, rfl⟩
  · exact ⟨_, _, _, _, rfl⟩

end Pulse

namespace Sweep

variable (s : Sweep)

@[simp]
theorem setRegister_nr10 : (s.setRegister v).nr10 = v := by
  simp only [setRegister]
  split <;> rfl

theorem clock_nr10 (frequency : Nat) : (s.clock ticks frequency).snd.nr10 = s.nr10 := by
  simp only [clock]
  split <;> rfl

end Sweep

namespace SweptPulse

variable (s : SweptPulse)

theorem setControl_eq : ∃ t length envelope enabled sweepTicks, s.setControl v = {
    pulse := { s.pulse with nrx4 := Control.kept v, ticks := t, length, envelope, enabled }
    sweep := { s.sweep with ticks := sweepTicks } } := by
  obtain ⟨_, _, _, _, hp⟩ := s.pulse.setControl_eq v
  simp only [setControl, hp]
  split
  · exact ⟨_, _, _, _, _, rfl⟩
  · exact ⟨_, _, _, _, _, rfl⟩

-- A new frequency is put into the registers.
theorem clock_shown :
    (s.clock ticks).sweep.nr10 = s.sweep.nr10 ∧
    (s.clock ticks).pulse.nrx1 = s.pulse.nrx1 ∧
    (s.clock ticks).pulse.nrx2 = s.pulse.nrx2 ∧
    Control.shown (s.clock ticks).pulse.nrx4 = Control.shown s.pulse.nrx4 := by
  obtain ⟨_, _, _, _, _, hp⟩ := s.pulse.clock_eq ticks
  simp only [clock]
  split
  case isFalse => exact ⟨rfl, rfl, rfl, rfl⟩
  have hs := s.sweep.clock_nr10 ticks (s.pulse.clock ticks).frequency
  rw [hp] at hs ⊢
  split
  case h_1 => exact ⟨hs, rfl, rfl, rfl⟩
  case h_2 => exact ⟨hs, rfl, rfl, rfl⟩
  case h_3 => exact ⟨hs, rfl, rfl, Control.shown_setFrequency ..⟩

end SweptPulse

namespace Wave

variable (w : Wave)

theorem clock_eq : ∃ position t length enabled,
    w.clock ticks = { w with position, ticks := t, length, enabled } := by
  simp only [clock]
  split
  · exact ⟨_, _, _, _, rfl⟩
  · exact ⟨_, _, _, _, rfl⟩

theorem setControl_eq : ∃ position t length enabled, w.setControl v =
    { w with nr34 := Control.kept v, position, ticks := t, length, enabled } := by
  simp only [setControl]
  split
  · exact ⟨_, _, _, _, rfl⟩
  · exact ⟨_, _, _, _, rfl⟩

end Wave

namespace Noise

variable (n : Noise)

theorem clock_eq : ∃ lfsr t length envelope enabled,
    n.clock ticks = { n with lfsr, ticks := t, length, envelope, enabled } := by
  simp only [clock]
  split
  · exact ⟨_, _, _, _, _, rfl⟩
  · exact ⟨_, _, _, _, _, rfl⟩

theorem setControl_eq : ∃ lfsr t length envelope enabled, n.setControl v =
    { n with nr44 := Control.kept v, lfsr, ticks := t, length, envelope, enabled } := by
  simp only [setControl]
  split
  · exact ⟨_, _, _, _, _, rfl⟩
  · exact ⟨_, _, _, _, _, rfl⟩

end Noise
end Channels
end Sound

open Sound

namespace Apu

variable (s : Apu) {q r : Sound.Register} {mask : UInt8}

theorem advance_ch3_ram (ticks : Nat) : (s.advance ticks).snd.ch3.ram = s.ch3.ram := by
  obtain ⟨_, _, _, _, h3⟩ := s.ch3.clock_eq ticks
  simp only [advance, clockChannels, h3]
  split <;> rfl

theorem setPower_ch3_ram (on : Bool) : (s.setPower on).ch3.ram = s.ch3.ram := by
  simp only [setPower]
  split <;> rfl

theorem writePowered_ch3_ram (q : Sound.Register) (v : UInt8) :
    (s.writePowered q v).ch3.ram = s.ch3.ram := by
  cases q
  case nr34 =>
    obtain ⟨_, _, _, _, h⟩ := s.ch3.setControl_eq v
    simp only [writePowered, h]
  all_goals rfl

theorem writePowered_enabled (q : Sound.Register) (v : UInt8) :
    (s.writePowered q v).enabled = s.enabled := by
  cases q <;> rfl

-- Triggers, sweeps, envelopes and lengths have no part in what the registers show.
theorem readRegister_advance (hr : r ≠ .nr52) (ticks : Nat) :
    (s.advance ticks).snd.readRegister r = s.readRegister r := by
  obtain ⟨h10, h11, h12, h14⟩ := s.ch1.clock_shown ticks
  obtain ⟨_, _, _, _, _, h2⟩ := s.ch2.clock_eq ticks
  obtain ⟨_, _, _, _, h3⟩ := s.ch3.clock_eq ticks
  obtain ⟨_, _, _, _, _, h4⟩ := s.ch4.clock_eq ticks
  simp only [advance, clockChannels]
  split
  case isFalse => rfl
  case isTrue =>
    cases r
    case nr52 => exact absurd rfl hr
    all_goals simp only [readRegister, h10, h11, h12, h14, h2, h3, h4]

theorem read_low (r : Sound.Register) : s.read r.low = s.readRegister r := by
  rw [read, r.ofLow?_low]

-- Where no register can be read there are ones only.
theorem read_eq_openBus {low : UInt8} (hm : readMask? low = none) (hl : low ≠ 0x26)
    (hw : ¬(0x30 ≤ low ∧ low ≤ 0x3f)) : s.read low = Memory.openBus := by
  cases hr : Sound.Register.ofLow? low
  case none => rw [read, hr]
  case some r =>
    obtain rfl := Sound.Register.ofLow?_eq_some_iff.mp hr
    rw [read_low]
    cases r
    case wave i => exact absurd (Sound.Register.wave_le i) hw
    all_goals first | rfl | exact absurd rfl hl | cases hm

-- The master register tells of the power and of the channels, and has ones that never change.
theorem testBit_status :
    testBit s.status 7 = s.enabled ∧ (∀ i, 4 ≤ i → i ≤ 6 → testBit s.status i) ∧
    testBit s.status 3 = s.ch4.enabled ∧ testBit s.status 2 = s.ch3.enabled ∧
    testBit s.status 1 = s.ch2.enabled ∧ testBit s.status 0 = s.ch1.pulse.enabled := by
  have h : ∀ p c4 c3 c2 c1 : Bool,
      let b := 0x70 ||| bitIf p 7 ||| bitIf c4 3 ||| bitIf c3 2 ||| bitIf c2 1 ||| bitIf c1 0
      testBit b 7 = p ∧ (testBit b 4 ∧ testBit b 5 ∧ testBit b 6) ∧
      testBit b 3 = c4 ∧ testBit b 2 = c3 ∧ testBit b 1 = c2 ∧ testBit b 0 = c1 := by decide
  obtain ⟨hp, ⟨h4, h5, h6⟩, hc⟩ :=
    h s.enabled s.ch4.enabled s.ch3.enabled s.ch2.enabled s.ch1.pulse.enabled
  refine ⟨hp, fun i hi hi' => ?_, hc⟩
  obtain rfl | rfl | rfl : i = 4 ∨ i = 5 ∨ i = 6 := by omega
  · exact h4
  · exact h5
  · exact h6

theorem read_advance {low : UInt8} (hl : low ≠ 0x26) (ticks : Nat) :
    (s.advance ticks).snd.read low = s.read low := by
  rw [read, read]
  split
  case h_1 r h =>
    have hr : r ≠ .nr52 := fun hr => hl (Sound.Register.ofLow?_eq_some_iff.mp (hr ▸ h))
    exact s.readRegister_advance hr ticks
  case h_2 => rfl

-- Without power all registers are clear.
theorem readRegister_powerOff (hm : readMask? r.low = some mask) :
    s.powerOff.readRegister r = mask := by
  cases r
  case wave i => exact absurd hm (by rw [readMask?_wave]; nofun)
  all_goals cases hm
  all_goals simp only [readRegister, powerOff, Wave.powerOff, Control.shown, UInt8.zero_or,
    UInt8.zero_and, UInt8.or_zero]

-- With the power on, a register shows what is written to it,
theorem readRegister_writePowered_self (hm : readMask? r.low = some mask) (v : UInt8) :
    (s.writePowered r v).readRegister r = mask ||| v := by
  cases r
  case wave i => exact absurd hm (by rw [readMask?_wave]; nofun)
  all_goals cases hm
  case nr10 => simp [readRegister, writePowered, SweptPulse.setSweep, UInt8.or_comm]
  case nr14 =>
    obtain ⟨_, _, _, _, _, h⟩ := s.ch1.setControl_eq v
    simp only [readRegister, writePowered, h, Control.shown_kept]
  case nr24 =>
    obtain ⟨_, _, _, _, h⟩ := s.ch2.setControl_eq v
    simp only [readRegister, writePowered, h, Control.shown_kept]
  case nr34 =>
    obtain ⟨_, _, _, _, h⟩ := s.ch3.setControl_eq v
    simp only [readRegister, writePowered, h, Control.shown_kept]
  case nr44 =>
    obtain ⟨_, _, _, _, _, h⟩ := s.ch4.setControl_eq v
    simp only [readRegister, writePowered, h, Control.shown_kept]
  case nr12 | nr22 | nr42 | nr43 | nr50 | nr51 => exact (UInt8.zero_or).symm
  all_goals exact UInt8.or_comm ..

-- and no other one does.
theorem readRegister_writePowered_of_ne (hr : r ≠ .nr52) (h : q ≠ r) (v : UInt8) :
    (s.writePowered q v).readRegister r = s.readRegister r := by
  cases q
  case nr14 =>
    obtain ⟨_, _, _, _, _, hs⟩ := s.ch1.setControl_eq v
    cases r <;> first | contradiction | simp only [readRegister, writePowered, hs]
  case nr24 =>
    obtain ⟨_, _, _, _, hs⟩ := s.ch2.setControl_eq v
    cases r <;> first | contradiction | simp only [readRegister, writePowered, hs]
  case nr34 =>
    obtain ⟨_, _, _, _, hs⟩ := s.ch3.setControl_eq v
    cases r <;> first | contradiction | simp only [readRegister, writePowered, hs]
  case nr44 =>
    obtain ⟨_, _, _, _, _, hs⟩ := s.ch4.setControl_eq v
    cases r <;> first | contradiction | simp only [readRegister, writePowered, hs]
  all_goals cases r <;> first | rfl | contradiction

variable (low v : UInt8)

-- All that a write can do: throw the master switch, go to the wave memory, go to another register
-- if the power is on, or come to nothing.
theorem write_cases :
    (low = 0x26 ∧ s.write low v = s.setPower (testBit v 7)) ∨
    (∃ i : Fin 16, low = (Sound.Register.wave i).low ∧
      s.write low v = { s with ch3.ram := s.ch3.ram.set i v i.isLt }) ∨
    (∃ q, q ≠ .nr52 ∧ (∀ i, q ≠ .wave i) ∧ low = q.low ∧
      s.write low v = if s.enabled then s.writePowered q v else s) ∨
    ((∀ q : Sound.Register, low ≠ q.low) ∧ s.write low v = s) := by
  cases h : Sound.Register.ofLow? low
  case none =>
    have hq (q : Sound.Register) : low ≠ q.low := fun hl => by simp [hl, q.ofLow?_low] at h
    refine .inr (.inr (.inr ⟨hq, ?_⟩))
    rw [write, h]
  case some q =>
    have hl := Sound.Register.ofLow?_eq_some_iff.mp h
    have hw : s.write low v = s.writeRegister q v := by rw [write, h]
    rw [hw]
    cases q
    case nr52   => exact .inl ⟨hl, rfl⟩
    case wave i => exact .inr (.inl ⟨i, hl, rfl⟩)
    all_goals refine .inr (.inr (.inl ⟨_, ?_, ?_, hl, rfl⟩)) <;> nofun

theorem write_enabled : (s.write low v).enabled =
    if low = 0x26 then testBit v 7 else s.enabled := by
  obtain ⟨rfl, h⟩ | ⟨i, rfl, h⟩ | ⟨q, hq, -, rfl, h⟩ | ⟨hl, h⟩ := s.write_cases low v
  · rw [h, if_pos rfl]
    rfl
  · have hn : (Sound.Register.wave i).low ≠ 0x26 := Sound.Register.low_ne_master nofun
    rw [h, if_neg hn]
  · rw [h, if_neg (Sound.Register.low_ne_master hq)]
    split
    · exact s.writePowered_enabled q v
    · rfl
  · have hn : low ≠ 0x26 := hl .nr52
    rw [h, if_neg hn]

theorem write_ch3_ram (i : Fin 16) : (s.write low v).ch3.ram.get i =
    if low = (Sound.Register.wave i).low then v else s.ch3.ram.get i := by
  obtain ⟨rfl, h⟩ | ⟨j, rfl, h⟩ | ⟨q, -, hq, rfl, h⟩ | ⟨hl, h⟩ := s.write_cases low v
  · have hn : (Sound.Register.wave i).low ≠ 0x26 := Sound.Register.low_ne_master nofun
    rw [h, setPower_ch3_ram, if_neg hn.symm]
  · simp only [h, Sound.Register.low_inj, Sound.Register.wave.injEq]
    exact s.ch3.ram.get_set j i v
  · rw [h, if_neg (Sound.Register.low_inj.not.mpr (hq i))]
    split
    · rw [writePowered_ch3_ram]
    · rfl
  · rw [h, if_neg (hl (.wave i))]

-- The registers are cleared as the power goes off.
theorem readRegister_setPower (hm : readMask? r.low = some mask) (on : Bool) :
    (s.setPower on).readRegister r = if s.enabled && !on then mask else s.readRegister r := by
  have hr : ∀ (s : Apu) on, { s with enabled := on }.readRegister r = s.readRegister r := by
    cases r
    case nr52 => cases hm
    all_goals exact fun _ _ => rfl
  rw [setPower, hr]
  split
  · exact s.readRegister_powerOff hm
  · rfl

theorem readRegister_write (hm : readMask? r.low = some mask) (h : low ≠ 0x26) :
    (s.write low v).readRegister r =
      if s.enabled ∧ low = r.low then mask ||| v else s.readRegister r := by
  have hr : r ≠ .nr52 := fun hr => by subst hr; cases hm
  have hw (i : Fin 16) : r ≠ .wave i := fun hr => by subst hr; rw [readMask?_wave] at hm; cases hm
  obtain ⟨rfl, -⟩ | ⟨i, rfl, h⟩ | ⟨q, -, -, rfl, h⟩ | ⟨hl, h⟩ := s.write_cases low v
  · exact absurd rfl h
  · rw [h, if_neg fun hi => hw i (Sound.Register.low_inj.mp hi.right).symm]
    cases r <;> first | rfl | exact absurd rfl (hw _)
  · simp only [h, Sound.Register.low_inj]
    by_cases he : s.enabled
    case neg => simp [he]
    by_cases hq : q = r
    case neg => simp [he, hq, s.readRegister_writePowered_of_ne hr hq]
    case pos => simp [he, hq, s.readRegister_writePowered_self hm]
  · rw [h, if_neg fun h => hl r h.right]

end Apu
end DotMatrix
