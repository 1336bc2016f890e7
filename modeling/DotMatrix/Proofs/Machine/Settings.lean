import DotMatrix.Proofs.Cpu.Alike
import DotMatrix.Proofs.Host.Alike
import DotMatrix.Proofs.Machine.Interrupts

namespace DotMatrix

open Video Sound

namespace Apu

-- The unit without its settings, the clock of its samples, and the samples that wait.
def unsampled (s : Apu) : Apu := { s with config := {}, sampleTicks := {}, buffer := #[] }

-- What time does to the registers and the channels.
def clockPowered (s : Apu) (ticks : Nat) : Apu := if s.enabled then s.clockChannels ticks else s

variable (s : Apu)

theorem readRegister_unsampled (r : Sound.Register) :
    s.unsampled.readRegister r = s.readRegister r := by
  cases r <;> rfl

theorem writeRegister_unsampled (r : Sound.Register) (v : UInt8) :
    (s.writeRegister r v).unsampled = s.unsampled.writeRegister r v := by
  have he : s.unsampled.enabled = s.enabled := rfl
  cases r
  case nr52 =>
    simp only [writeRegister, setPower, he]
    split <;> rfl
  case wave => rfl
  all_goals
    simp only [writeRegister, he]
    split <;> rfl

theorem advance_unsampled (ticks : Nat) :
    (s.advance ticks).snd.unsampled = s.unsampled.clockPowered ticks := by
  have he : s.unsampled.enabled = s.enabled := rfl
  simp only [advance, clockPowered, he]
  split <;> rfl

end Apu

namespace Board

-- The board without the samples.
def unsampled (b : Board) : Board := { b with apu := b.apu.unsampled }

theorem read_unsampled (b : Board) (a : UInt16) : b.unsampled.read a = b.read a := by
  simp only [read]
  cases Region.ofAddress a
  case sound r => exact b.apu.readRegister_unsampled r
  all_goals rfl

theorem startDma_unsampled (b : Board) (page : UInt8) :
    (b.startDma page).unsampled = b.unsampled.startDma page := by
  have ho : b.unsampled.dmaOam? page = b.dmaOam? page := rfl
  simp only [startDma, ho]
  cases b.dmaOam? page <;> rfl

theorem write_unsampled (b : Board) (a : UInt16) (v : UInt8) :
    (b.write a v).unsampled = b.unsampled.write a v := by
  simp only [write]
  cases Region.ofAddress a
  case sound r =>
    have hr := b.apu.writeRegister_unsampled r v
    exact congrArg (fun apu => { b with apu }) hr
  case dma => exact b.startDma_unsampled v
  all_goals rfl

-- Two boards that differ in their samples at most.
def SameUnsampled (b c : Board) : Prop := b.unsampled = c.unsampled

-- They have all but the sound unit in common.
theorem SameUnsampled.split {b c : Board} (h : b.SameUnsampled c) :
    ∃ apu, b = { c with apu } ∧ apu.unsampled = c.apu.unsampled :=
  ⟨b.apu, congrArg (fun d : Board => { d with apu := b.apu }) h, congrArg (·.apu) h⟩

-- The processor cannot tell them apart.
theorem busAlike_sameUnsampled : BusAlike SameUnsampled where
  read {b c} h a := by
    have hr : b.read a = c.read a := by
      rw [← b.read_unsampled a, ← c.read_unsampled a]
      exact congrArg (·.read a) h
    exact ⟨hr, h⟩
  write {b c} h a v := by
    have hw : (b.write a v).unsampled = (c.write a v).unsampled := by
      rw [b.write_unsampled, c.write_unsampled]
      exact congrArg (·.write a v) h
    exact hw
  pending h     := congrArg (·.interrupts.pending) h
  acknowledge h := by
    obtain ⟨apu, rfl, ha⟩ := h.split
    refine ⟨rfl, ?_⟩
    simp only [SameUnsampled, unsampled, Bus.acknowledge, ha]

theorem SameUnsampled.hold {b c : Board} (h : b.SameUnsampled c) (directions actions : UInt8) :
    (b.hold directions actions).SameUnsampled (c.hold directions actions) := by
  obtain ⟨apu, rfl, ha⟩ := h.split
  simp only [SameUnsampled, unsampled, Board.hold, ha]

end Board

-- Two hosts that the same lines were handed to.
def Watched.SameLines {η θ : Type} (x : Watched η) (y : Watched θ) : Prop := x.lines = y.lines

variable {η θ : Type} [LineSink η] [SampleSink η] [LineSink θ] [SampleSink θ]

omit [SampleSink η] [SampleSink θ] in
theorem Watched.drawAlike_sameLines : DrawAlike (SameLines : Watched η → Watched θ → Prop) := by
  intro x y h n pixels
  simp only [SameLines, lines_draw]
  exact congrArg (· ++ [(n, pixels)]) h

omit [SampleSink θ] [LineSink θ] in
-- The lines of a board come from its picture unit alone.
theorem Board.advance_lines (b : Board) (ticks : Nat) (x : Watched η) :
    (b.advance ticks x).host.lines = (b.ppu.advance ticks x).sink.lines := by
  simp only [Board.advance]
  cases (b.apu.advance ticks).fst
  case none => rfl
  case some => exact Watched.lines_queue ..

theorem Board.SameUnsampled.advance {b c : Board} (h : b.SameUnsampled c) {x : Watched η}
    {y : Watched θ} (hl : x.SameLines y) (ticks : Nat) :
    (b.advance ticks x).board.SameUnsampled (c.advance ticks y).board ∧
      (b.advance ticks x).host.SameLines (c.advance ticks y).host := by
  obtain ⟨apu, rfl, ha⟩ := h.split
  have hv := c.ppu.advance_alike Watched.drawAlike_sameLines hl ticks
  constructor
  case left =>
    simp only [SameUnsampled, unsampled, Board.advance, hv.ppu, hv.vblanks, hv.stats,
      Apu.advance_unsampled, ha]
  case right =>
    rw [Watched.SameLines, advance_lines, advance_lines]
    exact hv.sink

namespace Machine

-- The machine without the samples.
def unsampled (m : Machine) : Machine := m.mapBoard Board.unsampled

-- Two machines that differ in their samples at most.
structure SameUnsampled (m n : Machine) : Prop where
  core    : m.core.Alike Board.SameUnsampled n.core
  elapsed : m.elapsed = n.elapsed

-- The same of what two runs have come to. Their hosts may have answered differently.
structure Run.SameUnsampled (r : Run (Watched η)) (q : Run (Watched θ)) : Prop where
  machine : r.machine.SameUnsampled q.machine
  lines   : r.host.SameLines q.host
  illegal : ∀ e, r.error = some (.illegal e) ↔ q.error = some (.illegal e)

namespace SameUnsampled

variable {m n : Machine} {x : Watched η} {y : Watched θ}

theorem unsampled_eq (h : m.SameUnsampled n) : m.unsampled = n.unsampled := by
  have hc := h.core.cpu
  have hb : m.core.bus.unsampled = n.core.bus.unsampled := h.core.bus
  simp only [unsampled, mapBoard, hc, hb, h.elapsed]

theorem hold (h : m.SameUnsampled n) (directions actions : UInt8) :
    (m.hold directions actions).SameUnsampled (n.hold directions actions) where
  core    := ⟨h.core.cpu, h.core.bus.hold directions actions⟩
  elapsed := h.elapsed

theorem step (h : m.SameUnsampled n) (hl : x.SameLines y) :
    (m.step x).SameUnsampled (n.step y) := by
  have ⟨r, s, t, hs, ht, hc⟩ := h.core.step Board.busAlike_sameUnsampled
  cases r
  case error e =>
    rw [step_of_illegal hs, step_of_illegal ht]
    exact ⟨⟨hc, h.elapsed⟩, hl, fun _ => Iff.rfl⟩
  case ok ticks =>
    have ⟨hb, hl⟩ := hc.bus.advance hl ticks
    rw [step_of_ok hs, step_of_ok ht]
    exact ⟨⟨⟨hc.cpu, hb⟩, congrArg (· + ticks) h.elapsed⟩, hl, by simp⟩

end SameUnsampled

namespace Watch

structure SameUnsampled (s : Watch (Watched η)) (t : Watch (Watched θ)) : Prop where
  machine : s.machine.SameUnsampled t.machine
  lines   : s.host.SameLines t.host

variable {s : Watch (Watched η)} {t : Watch (Watched θ)}

theorem SameUnsampled.move (h : s.SameUnsampled t) (m : Move) :
    (s.move m).SameUnsampled (t.move m) := by
  cases m
  case step =>
    have hs := h.machine.step h.lines
    exact ⟨hs.machine, hs.lines⟩
  case hold directions actions => exact ⟨h.machine.hold directions actions, h.lines⟩

theorem SameUnsampled.run (h : s.SameUnsampled t) (moves : List Move) :
    (s.run moves).SameUnsampled (t.run moves) := by
  induction moves generalizing s t
  case nil             => exact h
  case cons m moves ih => exact ih (h.move m)

end Watch

-- From power-on with the same cartridge, and with the same buttons held between the same steps: at
-- every moment the machines are the same but for their samples, the same lines have been drawn, and
-- the next step meets the same illegal instruction if it meets one.
theorem settings_change_samples_only (cartridge : Cartridge) (config₁ config₂ : Config) (x : η)
    (y : θ) (moves : List Move) :
    let s := (Watch.powerOn cartridge config₁ (Watched.of x)).run moves
    let t := (Watch.powerOn cartridge config₂ (Watched.of y)).run moves
    s.machine.unsampled = t.machine.unsampled ∧
    s.host.lines = t.host.lines ∧
    ∀ e, (s.machine.step s.host).error = some (.illegal e) ↔
      (t.machine.step t.host).error = some (.illegal e) := by
  intro s t
  have h0 : (Watch.powerOn cartridge config₁ (Watched.of x)).SameUnsampled
      (Watch.powerOn cartridge config₂ (Watched.of y)) := ⟨⟨⟨rfl, rfl⟩, rfl⟩, rfl⟩
  have h : s.SameUnsampled t := h0.run moves
  exact ⟨h.machine.unsampled_eq, h.lines, (h.machine.step h.lines).illegal⟩

end Machine
end DotMatrix
