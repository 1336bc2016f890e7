import DotMatrix.Proofs.Host.Alike
import DotMatrix.Proofs.Machine.History

namespace DotMatrix

open Video Sound

namespace Interrupts

theorem requestIf_enabled (s : Interrupts) (c : Bool) (i : Interrupt) :
    (s.requestIf c i).enabled = s.enabled := by
  cases c <;> rfl

theorem pending_of_enabled_eq_zero {s : Interrupts} (h : s.enabled = 0) : s.pending = false := by
  simp [pending, active, h]

end Interrupts

namespace Core

variable {β : Type} [Bus β] {s : Core β}

theorem dispatch_of_not_pending (h : Bus.pending s.bus = false) : s.dispatch = (false, s) := by
  simp [dispatch, h]

theorem step_of_halted (hp : Bus.pending s.bus = false) (hh : s.cpu.halted) :
    s.step = (.ok haltCost, s) := by
  simp [step, dispatch_of_not_pending hp, hh]

theorem executeNext_halt (h : (Bus.read s.bus s.cpu.pc).fst = 0x76) :
    s.executeNext = (.ok haltCost, {
      cpu := { s.cpu with pc := s.cpu.pc + 1, halted := true }
      bus := (Bus.read s.bus s.cpu.pc).snd }) := by
  have hf : s.fetch = (0x76, {
      cpu := { s.cpu with pc := s.cpu.pc + 1 }
      bus := (Bus.read s.bus s.cpu.pc).snd }) := h ▸ rfl
  have hd : Instruction.decode 0x76 = some .halt := by decide
  simp only [executeNext, hf, hd]
  rfl

theorem step_halt (hp : Bus.pending s.bus = false) (hh : s.cpu.halted = false)
    (ho : (Bus.read s.bus s.cpu.pc).fst = 0x76) :
    s.step = (.ok haltCost, {
      cpu := { s.cpu with pc := s.cpu.pc + 1, halted := true }
      bus := (Bus.read s.bus s.cpu.pc).snd }) := by
  simp [step, dispatch_of_not_pending hp, hh, executeNext_halt ho]

end Core

namespace Machine

variable {η : Type} [LineSink η] [SampleSink η] {m : Machine} {host : η}

structure Idle (m : Machine) : Prop where
  masked : m.core.bus.interrupts.enabled = 0
  -- Unless the processor sleeps already, the next opcode sends it to sleep.
  sleeps : m.core.cpu.halted = false →
    Region.ofAddress m.core.cpu.pc = .rom ∧ m.core.bus.cartridge.readRom m.core.cpu.pc = 0x76

namespace Idle

theorem next_opcode (h : m.Idle) (hh : m.core.cpu.halted = false) :
    m.core.bus.read m.core.cpu.pc = 0x76 := by
  have ⟨hr, ho⟩ := h.sleeps hh
  rw [Board.read, hr]
  exact ho

theorem core_step (h : m.Idle) :
    ∃ cpu, cpu.halted ∧ m.core.step = (.ok Core.haltCost, { m.core with cpu }) := by
  have hp : Bus.pending m.core.bus = false := Interrupts.pending_of_enabled_eq_zero h.masked
  cases hh : m.core.cpu.halted
  case true  => exact ⟨_, hh, Core.step_of_halted hp hh⟩
  case false => exact ⟨_, rfl, Core.step_halt hp hh (h.next_opcode hh)⟩

theorem stepWrites (h : m.Idle) : m.core.stepWrites = [] := by
  have hp : Bus.pending m.core.recorded.bus = false :=
    Interrupts.pending_of_enabled_eq_zero h.masked
  cases hh : m.core.cpu.halted
  case true =>
    rw [Core.stepWrites, Core.step_of_halted hp hh]
    rfl
  case false =>
    rw [Core.stepWrites, Core.step_halt hp hh (h.next_opcode hh)]
    rfl

-- The devices never touch the enabled interrupts.
theorem step (h : m.Idle) : (m.step host).machine.Idle := by
  have ⟨cpu, hh, hs⟩ := h.core_step
  rw [step_of_ok hs]
  constructor
  case masked => simp [Board.advance, Interrupts.requestIf_enabled, h.masked]
  case sleeps => simp [hh]

theorem step_error (h : m.Idle) (e : IllegalInstruction) :
    (m.step host).error ≠ some (.illegal e) := by
  have ⟨cpu, _, hs⟩ := h.core_step
  simp [step_of_ok hs]

theorem runFrame_error (h : m.Idle) (e : IllegalInstruction) :
    (m.runFrame host).error ≠ some (.illegal e) := by
  induction m, host using runFrame.induct
  case case1 m host hl next he hi =>
    rw [runFrame_of_step_ok hl (Option.isNone_iff_eq_none.mp he)]
    exact hi h.step
  case case2 m host hl next he =>
    rw [runFrame_of_step_error hl (by simpa using he)]
    exact h.step_error e
  case case3 m host hl => simp [runFrame_of_le (Nat.le_of_not_lt hl)]

theorem congr {n : Machine} (h : m.Idle) (hn : n.core = m.core) : n.Idle where
  masked := hn ▸ h.masked
  sleeps := hn ▸ h.sleeps

theorem hold (h : m.Idle) (directions actions : UInt8) : (m.hold directions actions).Idle where
  masked := (Interrupts.requestIf_enabled ..).trans h.masked
  sleeps := h.sleeps

end Idle

-- An idle machine writes nothing,
theorem invariant_idle_writes :
    Moment.Invariant fun s : Moment η => s.machine.Idle ∧ s.writes = [] where
  step {s} h := by
    have ⟨hi, hw⟩ := h
    refine ⟨hi.step, ?_⟩
    simp only [Moment.step, hw, hi.stepWrites, List.append_nil]
  turn {s} h _ := ⟨h.left.congr s.turn_core, h.right⟩
  hold h directions actions := ⟨h.left.hold directions actions, h.right⟩

end Machine

-- A cartridge whose program sends the processor to sleep at once.
def Cartridge.lullaby : Cartridge where
  header := { kind := .romOnly, romCode := 0, ramSize := .absent }
  rom    := (Memory.zeros _).write 0x100 0x76
  ram    := Memory.zeros _

theorem Cartridge.readRom_lullaby : lullaby.readRom 0x100 = 0x76 := by
  have hs : 0 < lullaby.header.romBytes := by
    unfold Header.romBytes
    decide
  have ho : lullaby.banks.romOffset lullaby.header 0x100 = 0x100 := rfl
  have hr : lullaby.rom = Memory.write (Memory.zeros _) 0x100 0x76 := rfl
  rw [readRom, ho, hr, Memory.read_write_self _ _ _ hs]

namespace Machine

theorem idle_lullaby {config : Config} : (powerOn .lullaby config).Idle where
  masked   := rfl
  sleeps _ := ⟨rfl, Cartridge.readRom_lullaby⟩

end Machine
end DotMatrix
