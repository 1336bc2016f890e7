import DotMatrix.Machine.Frame
import DotMatrix.Proofs.Checked.Cpu
import DotMatrix.Proofs.Checked.Schedule
import DotMatrix.Proofs.Cpu.Cost
import DotMatrix.Proofs.Host.Watched
import DotMatrix.Proofs.Machine.Idle
import DotMatrix.Proofs.Machine.Writes

namespace DotMatrix

open Video Sound

namespace Board

section

variable {η : Type} [LineSink η] [SampleSink η]

def checkedAdvance (b : Board) (ticks : Nat) (host : η) : Checked (Board.Progress η) := do
  let video ← b.ppu.checkedAdvance ticks host
  let (overflows, timer) ← b.timer.checkedAdvance ticks
  let (full, apu) ← b.apu.checkedAdvance ticks
  let interrupts ← b.interrupts.checkedRequestIf (0 < video.vblanks) .vblank
  let interrupts ← interrupts.checkedRequestIf (0 < video.stats) .stat
  let interrupts ← interrupts.checkedRequestIf (0 < overflows) .timer
  let (refusal, host) :=
    match full with
    | some buffer => SampleSink.queue video.sink buffer
    | none        => (none, video.sink)
  return {
    board   := { b with ppu := video.ppu, timer, apu, interrupts }
    host
    refusal := video.refusal <|> refusal }

end

-- The devices that count are where they may be. The others may be in any state.
structure Orderly (b : Board) : Prop where
  apu   : b.apu.Orderly
  ppu   : b.ppu.Orderly
  timer : b.timer.Orderly

namespace Orderly

variable {b : Board} {ticks : Nat}

theorem write (h : b.Orderly) (a : UInt16) (v : UInt8) : (b.write a v).Orderly := by
  simp only [Board.write]
  cases Region.ofAddress a
  case vram | oam => exact { h with ppu := h.ppu.written (.kept rfl rfl rfl) }
  case div        => exact { h with timer := h.timer.resetDiv }
  case tima | tma => exact { h with timer := ⟨h.timer.divTicks, h.timer.timaTicks⟩ }
  case tac        => exact { h with timer := h.timer.setControl v }
  case sound r    => exact { h with apu := h.apu.writeRegister r v }
  case video r    => exact { h with ppu := h.ppu.written (b.ppu.writeRegister_written r v) }
  case dma        =>
    obtain ⟨_, _, hd⟩ := b.startDma_eq v
    exact hd ▸ { h with ppu := h.ppu.written (.kept rfl rfl rfl) }
  all_goals exact ⟨h.apu, h.ppu, h.timer⟩

theorem lasting : Lasting (fun _ => True) Orderly where
  read h _        := h
  write h a v _   := h.write a v
  acknowledge h   := ⟨h.apu, h.ppu, h.timer⟩

variable {η : Type} [LineSink η] [SampleSink η]

theorem checkedAdvance_eq (h : b.Orderly) (ht : ticks ≤ 24) (host : η) :
    b.checkedAdvance ticks host = some (b.advance ticks host) := by
  rw [checkedAdvance, h.ppu.checkedAdvance_eq ht, h.timer.checkedAdvance_eq ht,
    h.apu.checkedAdvance_eq ht]
  simp only [Interrupts.checkedRequestIf_eq, Option.bind_eq_bind, Option.bind_some]
  rfl

theorem advance (h : b.Orderly) (ht : ticks ≤ 24) (host : η) :
    (b.advance ticks host).board.Orderly where
  apu   := h.apu.advance ht
  ppu   := h.ppu.advance ticks host
  timer := h.timer.advance ticks

end Orderly
end Board

namespace Machine

-- Buffers that memory cannot address stop a machine from being built.
def checkedPowerOn (cartridge : Cartridge) (config : Config) : Checked Machine := do
  let apu ← Apu.checkedPostBoot config
  return { core := { cpu := .postBoot, bus := { cartridge, apu } } }

def checkedHold (m : Machine) (directions actions : UInt8) : Checked Machine := do
  let bus ← m.core.bus.checkedHold directions actions
  return { m with core.bus := bus }

section

variable {η : Type} [LineSink η] [SampleSink η]

def checkedStep (m : Machine) (host : η) : Checked (Run η) := do
  match ← m.core.checkedStep with
  | (.error e, core)  => return { machine := { m with core }, host, error := some (.illegal e) }
  | (.ok ticks, core) =>
    let progress ← core.bus.checkedAdvance ticks host
    let elapsed ← Checked.add 64 m.elapsed ticks
    return {
      machine := { core := { core with bus := progress.board }, elapsed }
      host    := progress.host
      error   := progress.refusal.map .refused }

theorem checkedStep_elapsed_lt {m : Machine} {host : η} {r : Run η}
    (h : m.checkedStep host = some r) (he : r.error = none) : m.elapsed < r.machine.elapsed := by
  rw [checkedStep, Core.checkedStep_eq] at h
  simp only [Option.bind_eq_bind, Option.bind_some] at h
  split at h
  case h_1 =>
    rw [← Option.some.inj h] at he
    cases he
  case h_2 hs =>
    have ⟨progress, _, h⟩ := Option.bind_eq_some_iff.mp h
    have ⟨elapsed, hf, h⟩ := Option.bind_eq_some_iff.mp h
    rw [← Option.some.inj h, Checked.eq_of_fit hf]
    exact Nat.lt_add_of_pos_right (Core.step_cost_pos hs)

def checkedRunFrame (m : Machine) (host : η) : Checked (Run η) :=
  if m.elapsed < Clock.ticksPerFrame then
    match _ : m.checkedStep host with
    | none      => none
    | some next => if next.error.isNone then next.machine.checkedRunFrame next.host else some next
  else do
    let elapsed ← Checked.sub m.elapsed Clock.ticksPerFrame
    return { machine := { m with elapsed }, host }
termination_by Clock.ticksPerFrame - m.elapsed
decreasing_by
  rename_i hs he
  have := checkedStep_elapsed_lt hs (Option.isNone_iff_eq_none.mp he)
  omega

theorem checkedRunFrame_of_step {m : Machine} {host : η} {next : Run η}
    (hl : m.elapsed < Clock.ticksPerFrame) (hs : m.checkedStep host = some next) :
    m.checkedRunFrame host =
      if next.error.isNone then next.machine.checkedRunFrame next.host else some next := by
  rw [checkedRunFrame, if_pos hl]
  split
  case h_1 hn => cases hs.symm.trans hn
  case h_2 hn =>
    cases hs.symm.trans hn
    rfl

end

-- A step is only made in a frame that has not come to its end.
structure Orderly (m : Machine) : Prop where
  board   : m.core.bus.Orderly
  elapsed : m.elapsed < Clock.ticksPerFrame + 24

-- The states of a machine between its calls, and between the steps of a frame. Each call may bring
-- another host, and anything may be written to the bus meanwhile.
inductive Reachable : Machine → Prop
  | powerOn {m : Machine} (cartridge : Cartridge) (config : Config)
    (on : checkedPowerOn cartridge config = some m) : Reachable m
  | hold {m : Machine} (before : Reachable m) (directions actions : UInt8) :
    Reachable (m.hold directions actions)
  | write {m : Machine} (before : Reachable m) (a : UInt16) (v : UInt8) :
    Reachable (m.mapBoard (·.write a v))
  | step {m : Machine} (before : Reachable m) (within : m.elapsed < Clock.ticksPerFrame)
    {η : Type} [LineSink η] [SampleSink η] (host : η) : Reachable (m.step host).machine
  | runFrame {m : Machine} (before : Reachable m)
    {η : Type} [LineSink η] [SampleSink η] (host : η) : Reachable (m.runFrame host).machine

variable {m : Machine} {cartridge : Cartridge} {config : Config}

theorem checkedPowerOn_eq (h : config.Fits) :
    checkedPowerOn cartridge config = some (powerOn cartridge config) := by
  rw [checkedPowerOn, Apu.checkedPostBoot_eq h]
  rfl

theorem orderly_of_checkedPowerOn (h : checkedPowerOn cartridge config = some m) : m.Orderly := by
  have hf : config.Fits := by
    have ⟨apu, ha, _⟩ := Option.bind_eq_some_iff.mp h
    exact Apu.fits_of_checkedPostBoot ha
  rw [checkedPowerOn_eq hf] at h
  cases h
  have he : 0 < Clock.ticksPerFrame + 24 := by decide
  exact ⟨⟨Apu.orderly_postBoot hf, Ppu.orderly_postBoot, Timer.orderly_initial⟩, he⟩

theorem checkedHold_eq (m : Machine) (directions actions : UInt8) :
    m.checkedHold directions actions = some (m.hold directions actions) := by
  rw [checkedHold, Board.checkedHold_eq]
  rfl

namespace Orderly

variable {η : Type} [LineSink η] [SampleSink η] {host : η}

theorem withElapsed (h : m.Orderly) {elapsed : Nat} (he : elapsed ≤ m.elapsed) :
    Orderly { m with elapsed } :=
  ⟨h.board, Nat.lt_of_le_of_lt he h.elapsed⟩

-- Where the processor leaves the board to the devices.
theorem core_step (h : m.Orderly) : m.core.step.snd.bus.Orderly :=
  Board.Orderly.lasting.step h.board fun _ _ => trivial

theorem step (h : m.Orderly) (hl : m.elapsed < Clock.ticksPerFrame) :
    (m.step host).machine.Orderly := by
  have hb := h.core_step
  cases hc : m.core.step
  case mk r core =>
    rw [hc] at hb
    cases r
    case error =>
      rw [step_of_illegal hc]
      exact ⟨hb, h.elapsed⟩
    case ok ticks =>
      have ht : ticks ≤ 24 := (Core.step_cost hc).right
      rw [step_of_ok hc]
      exact ⟨hb.advance ht host, Nat.add_lt_add_of_lt_of_le hl ht⟩

theorem checkedStep_eq (h : m.Orderly) : m.checkedStep host = some (m.step host) := by
  have hb := h.core_step
  rw [checkedStep, Core.checkedStep_eq]
  simp only [Option.bind_eq_bind, Option.bind_some]
  cases hc : m.core.step
  case mk r core =>
    rw [hc] at hb
    cases r
    case error => rw [step_of_illegal hc]; rfl
    case ok ticks =>
      have ht : ticks ≤ 24 := (Core.step_cost hc).right
      have he : m.elapsed + ticks < 1 <<< 64 :=
        Nat.lt_trans (Nat.add_lt_add_of_lt_of_le h.elapsed ht) (by decide)
      rw [step_of_ok hc]
      simp only [hb.checkedAdvance_eq ht host, Checked.add_eq he, Option.bind_some]
      rfl

theorem runFrame (h : m.Orderly) : (m.runFrame host).machine.Orderly :=
  runFrame_of_kept (fun h hl _ => h.step hl) (fun h _ => h.withElapsed (Nat.sub_le ..)) h host

theorem checkedRunFrame_eq (h : m.Orderly) : m.checkedRunFrame host = some (m.runFrame host) := by
  induction m, host using Machine.runFrame.induct
  case case1 m host hl next he hi =>
    rw [checkedRunFrame_of_step hl h.checkedStep_eq, if_pos he,
      runFrame_of_step_ok hl (Option.isNone_iff_eq_none.mp he)]
    exact hi (h.step hl)
  case case2 m host hl next he =>
    rw [checkedRunFrame_of_step hl h.checkedStep_eq, if_neg he,
      runFrame_of_step_error hl (by simpa using he)]
  case case3 m host hl =>
    have hl' := Nat.le_of_not_lt hl
    rw [runFrame_of_le hl', checkedRunFrame, if_neg hl, Checked.sub_eq hl']
    rfl

end Orderly

theorem Reachable.orderly (h : m.Reachable) : m.Orderly := by
  induction h
  case powerOn on         => exact orderly_of_checkedPowerOn on
  case hold hm            => exact ⟨⟨hm.board.apu, hm.board.ppu, hm.board.timer⟩, hm.elapsed⟩
  case write a v hm       => exact ⟨hm.board.write a v, hm.elapsed⟩
  case step hl _ _ _ _ hm => exact hm.step hl
  case runFrame hm        => exact hm.runFrame

-- All checks pass in every state of a machine, whatever is asked of it and whatever its host
-- refuses, and they change no result.
theorem Reachable.checks_pass (h : m.Reachable) {η : Type} [LineSink η] [SampleSink η] (host : η) :
    m.checkedStep host = some (m.step host) ∧
    m.checkedRunFrame host = some (m.runFrame host) ∧
    (∀ directions actions,
      m.checkedHold directions actions = some (m.hold directions actions)) ∧
    (∀ a, m.core.bus.checkedRead a = some (m.core.bus.read a)) ∧
    ∀ a v, m.core.bus.checkedWrite a v = some (m.core.bus.write a v) :=
  ⟨h.orderly.checkedStep_eq, h.orderly.checkedRunFrame_eq, m.checkedHold_eq,
    m.core.bus.checkedRead_eq, m.core.bus.checkedWrite_eq⟩

theorem checks_pass_lullaby :
    let m := ((powerOn .lullaby {}).mapBoard (·.write 0xff46 0xdf)).hold 1 0
    let host := Watched.willing
    m.Reachable ∧
    m.checkedStep host = some (m.step host) ∧
    m.checkedRunFrame host = some (m.runFrame host) ∧
    (∀ directions actions,
      m.checkedHold directions actions = some (m.hold directions actions)) ∧
    (∀ a, m.core.bus.checkedRead a = some (m.core.bus.read a)) ∧
    ∀ a v, m.core.bus.checkedWrite a v = some (m.core.bus.write a v) := by
  intro m host
  have hf : Config.Fits {} := by decide
  have h : m.Reachable := ((Reachable.powerOn _ _ (checkedPowerOn_eq hf)).write ..).hold ..
  exact ⟨h, h.checks_pass host⟩

end Machine
end DotMatrix
