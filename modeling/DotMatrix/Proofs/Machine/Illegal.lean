import DotMatrix.Proofs.Cartridge.Image
import DotMatrix.Proofs.Cpu.Illegal
import DotMatrix.Proofs.Host.Visible
import DotMatrix.Proofs.Interrupt
import DotMatrix.Proofs.Machine.Idle
import DotMatrix.Proofs.Machine.Sound
import DotMatrix.Proofs.Memory

namespace DotMatrix

open Video Sound

theorem Board.acknowledge_of_pending {b : Board} (h : Bus.pending b) :
    (Bus.acknowledge b).fst ≠ none := by
  have ⟨line, _, hk⟩ := Interrupts.acknowledge_of_active (bne_iff_ne.mp h)
  have hl : (Bus.acknowledge b).fst = some line := congrArg Prod.fst hk
  exact hl ▸ Option.some_ne_none line

-- A board is the same after it was read.
theorem Core.Stuck.step_eq {s : Core Board} (h : s.Stuck) :
    s.step = (.error { opcode := s.opcode, pc := s.cpu.pc }, s) :=
  h.step

namespace Machine

-- The machine with its processor no longer halted.
def awake (m : Machine) : Machine := { m with core := m.core.awake }

-- A machine that is run on while the same buttons are held. Each run may bring another host.
inductive RunOn (m : Machine) : Machine → Prop
  | start : m.RunOn m
  | step {n : Machine} (before : m.RunOn n)
    {η : Type} [LineSink η] [SampleSink η] (host : η) : m.RunOn (n.step host).machine
  | runFrame {n : Machine} (before : m.RunOn n)
    {η : Type} [LineSink η] [SampleSink η] (host : η) : m.RunOn (n.runFrame host).machine

-- What a machine does that stands at an illegal instruction. It asks nothing of any host.
structure StoppedBy (e : IllegalInstruction) (m : Machine) : Prop where
  step : ∀ {η : Type} [LineSink η] [SampleSink η] (host : η),
    m.step host = { machine := m, host, error := some (.illegal e) }
  runFrame : m.elapsed < Clock.ticksPerFrame →
    ∀ {η : Type} [LineSink η] [SampleSink η] (host : η),
      m.runFrame host = { machine := m, host, error := some (.illegal e) }
  -- The end of a frame takes no step.
  endFrame : Clock.ticksPerFrame ≤ m.elapsed →
    ∀ {η : Type} [LineSink η] [SampleSink η] (host : η),
      m.runFrame host =
        { machine := { m with elapsed := m.elapsed - Clock.ticksPerFrame }, host }

variable {m n : Machine} {e : IllegalInstruction}

theorem stoppedBy_of_stuck (h : m.core.Stuck) :
    m.StoppedBy { opcode := m.core.opcode, pc := m.core.cpu.pc } := by
  constructor
  case step     => exact fun host => step_of_illegal h.step_eq
  case endFrame => exact fun hl _ _ _ _ => runFrame_of_le hl
  case runFrame =>
    intro hl _ _ _ host
    have hs : m.step host = { machine := m, host, error := some (.illegal _) } :=
      step_of_illegal h.step_eq
    rw [runFrame_of_step_error hl (by simp [hs]), hs]

-- Where just the ticks of a frame are spent, the next frame meets no error.
theorem StoppedBy.endFrame_of_eq (h : m.StoppedBy e) (he : m.elapsed = Clock.ticksPerFrame)
    {η : Type} [LineSink η] [SampleSink η] (host : η) :
    let s := m.step host
    let r := s.machine.runFrame host
    s.error = some (.illegal e) ∧ r.error = none ∧
      s.machine.elapsed = Clock.ticksPerFrame ∧ r.machine.elapsed = 0 := by
  have hr := h.endFrame (Nat.le_of_eq he.symm) host
  rw [h.step host]
  dsimp only
  rw [hr]
  exact ⟨rfl, rfl, he, Nat.sub_eq_zero_of_le (Nat.le_of_eq he)⟩

-- The processor and the board stay as they are, and so does all else within a frame.
structure Unchanged (m n : Machine) : Prop where
  core    : n.core = m.core
  machine : m.elapsed < Clock.ticksPerFrame → n = m

theorem Unchanged.withElapsed (h : m.Unchanged n) (hl : Clock.ticksPerFrame ≤ n.elapsed)
    (elapsed : Nat) : m.Unchanged { n with elapsed } where
  core       := h.core
  machine hm := by
    have hn : n.elapsed < Clock.ticksPerFrame := h.machine hm ▸ hm
    exact absurd hn (Nat.not_lt.mpr hl)

theorem RunOn.unchanged (hr : m.RunOn n) (h : m.core.Stuck) : m.Unchanged n := by
  induction hr
  case start => exact ⟨rfl, fun _ => rfl⟩
  case step n _ _ _ _ host hn =>
    have hs := stoppedBy_of_stuck (m := n) (hn.core.symm ▸ h)
    rw [hs.step host]
    exact hn
  case runFrame n _ _ _ _ host hn =>
    have hs := stoppedBy_of_stuck (m := n) (hn.core.symm ▸ h)
    cases Nat.lt_or_ge n.elapsed Clock.ticksPerFrame
    case inl hl =>
      rw [hs.runFrame hl host]
      exact hn
    case inr hl =>
      rw [hs.endFrame hl host]
      exact hn.withElapsed hl _

variable {η : Type} [LineSink η] [SampleSink η] {host : η}

theorem core_step_of_illegal (h : (m.step host).error = some (.illegal e)) :
    ∃ core, m.core.step = (.error e, core) := by
  cases hc : m.core.step
  case mk r core =>
    cases r
    case ok => simp [step_of_ok hc] at h
    case error =>
      rw [step_of_illegal hc] at h
      cases h
      exact ⟨core, rfl⟩

-- All that such a step has done is to wake the processor.
theorem step_eq_of_illegal (h : (m.step host).error = some (.illegal e)) :
    m.awake.core.Stuck ∧ e = { opcode := m.awake.core.opcode, pc := m.core.cpu.pc } ∧
      m.step host = { machine := m.awake, host, error := some (.illegal e) } := by
  have ⟨core, hc⟩ := core_step_of_illegal h
  have ⟨hs, ha⟩ := Core.stuck_of_step Board.acknowledge_of_pending hc
  have ht := ha.symm.trans hs.step
  obtain rfl : e = { opcode := m.awake.core.opcode, pc := m.core.cpu.pc } := by
    rw [hc] at ht
    cases ht
    rfl
  exact ⟨hs, rfl, step_of_illegal ht⟩

-- A step that meets an illegal instruction has read one of the undefined opcodes where the program
-- counter is, and has woken the processor. It has done nothing else, and whatever follows meets the
-- same instruction and does nothing at all; but a frame whose ticks are spent ends.
theorem illegal_changes_nothing (h : (m.step host).error = some (.illegal e)) :
    e.pc = m.core.cpu.pc ∧
    e.opcode = m.core.bus.read e.pc ∧
    e.opcode ∈ Instruction.undefined ∧
    m.step host = { machine := m.awake, host, error := some (.illegal e) } ∧
    ∀ n, m.awake.RunOn n → m.awake.Unchanged n ∧ n.StoppedBy e := by
  obtain ⟨hs, rfl, he⟩ := step_eq_of_illegal h
  refine ⟨rfl, rfl, hs.undefined, he, fun n hn => ?_⟩
  have hu := hn.unchanged hs
  have hn := stoppedBy_of_stuck (m := n) (hu.core.symm ▸ hs)
  rw [hu.core] at hn
  exact ⟨hu, hn⟩

-- A frame that has met one can be run again, and makes no step any more.
theorem stoppedBy_of_runFrame (h : (m.runFrame host).error = some (.illegal e)) :
    (m.runFrame host).machine.StoppedBy e ∧
      (m.runFrame host).machine.elapsed < Clock.ticksPerFrame := by
  induction m, host using runFrame.induct
  case case1 m host hl next he hi =>
    rw [runFrame_of_step_ok hl (Option.isNone_iff_eq_none.mp he)] at h ⊢
    exact hi h
  case case2 m host hl next he =>
    rw [runFrame_of_step_error hl (by simpa using he)] at h ⊢
    obtain ⟨hs, rfl, he⟩ := step_eq_of_illegal h
    rw [he]
    exact ⟨stoppedBy_of_stuck (m := m.awake) hs, hl⟩
  case case3 m host hl => simp [runFrame_of_le (Nat.le_of_not_lt hl)] at h

end Machine

-- A cartridge whose program does nothing for one frame, and then comes to an illegal instruction.
def Cartridge.sled : Cartridge where
  header := lullaby.header
  rom    := (Memory.zeros _).write 0x4594 0xd3
  ram    := Memory.zeros _

theorem Cartridge.readRom_sled {a : UInt16} (h : a.toNat < 0x8000) :
    sled.readRom a = if 0x4594 = a.toNat then 0xd3 else 0 := by
  have hs : sled.header.romBytes = 0x8000 := by rw [romBytes_eq]; decide
  have hr : sled.rom = Memory.write (Memory.zeros _) 0x4594 0xd3 := rfl
  have ho : sled.banks.romOffset sled.header a = a.toNat := rfl
  have h0 : 0x4594 < sled.header.romBytes := by rw [hs]; decide
  rw [readRom, ho, Memory.read_eq_getD _ _ (romBytes_pos _), Nat.mod_eq_of_lt (hs.symm ▸ h), hr,
    Memory.getD_write _ h0, Memory.getD_zeros]

-- A host that takes every line and no sound.
structure Deaf

instance : LineSink Deaf := ⟨fun host _ _ => (none, host)⟩

instance : SampleSink Deaf := ⟨fun host _ => (some "audio refused", host)⟩

theorem Deaf.takesLines : TakesLines fun _ : Deaf => True := fun _ _ _ _ => ⟨rfl, trivial⟩

namespace Machine

-- One buffer takes the sound of one frame.
def sledConfig : Config := { sampleRate := 262144, bufferFrames := 4389 }

-- The machine after some steps of its program, none of which did anything.
structure Sliding (k : Nat) (m : Machine) : Prop where
  cpu       : m.core.cpu = { Cpu.postBoot with pc := .ofNat (0x100 + k) }
  masked    : m.core.bus.interrupts.enabled = 0
  cartridge : m.core.bus.cartridge = .sled
  board     : m.core.bus.Orderly
  elapsed   : m.elapsed = 4 * k
  on        : m.core.bus.apu.enabled
  sound     : ∃ frames handed,
    m.core.bus.apu.Buffered sledConfig (4 * k) frames handed ∧ frames.length = 4 * k / 16

namespace Sliding

variable {k : Nat} {m : Machine} {host : Deaf}

theorem powerOn : (powerOn .sled sledConfig).Sliding 0 where
  cpu       := rfl
  masked    := rfl
  cartridge := rfl
  board     := ⟨Apu.orderly_postBoot (by decide), Ppu.orderly_postBoot, Timer.orderly_initial⟩
  elapsed   := rfl
  on        := rfl
  sound     := ⟨[], [], .postBoot sledConfig, rfl⟩

theorem not_pending (h : m.Sliding k) : Bus.pending m.core.bus = false :=
  Interrupts.pending_of_enabled_eq_zero h.masked

theorem opcode (h : m.Sliding k) (hk : k ≤ 17556) :
    m.core.opcode = if k = 17556 then 0xd3 else 0 := by
  have hn : (UInt16.ofNat (0x100 + k)).toNat = 0x100 + k :=
    UInt16.toNat_ofNat_of_lt' (Nat.lt_of_le_of_lt (Nat.add_le_add_left hk _) (by decide))
  have ha : (UInt16.ofNat (0x100 + k)).toNat < 0x8000 := by omega
  have ho : m.core.opcode = m.core.bus.read m.core.cpu.pc := rfl
  have hr : Region.ofAddress (.ofNat (0x100 + k)) = .rom := if_pos ha
  rw [ho, h.cpu, Board.read, hr]
  dsimp only
  rw [h.cartridge, Cartridge.readRom_sled ha, hn]
  split <;> split <;> first | rfl | omega

theorem core_step (h : m.Sliding k) (hk : k < 17556) :
    m.core.step = (.ok 4, { m.core with
      cpu := { Cpu.postBoot with pc := .ofNat (0x100 + (k + 1)) } }) := by
  have hh : m.core.cpu.halted = false := by rw [h.cpu]; rfl
  have hd : Instruction.decode m.core.opcode = some .nop := by
    rw [h.opcode (Nat.le_of_lt hk), if_neg (Nat.ne_of_lt hk)]
    decide
  have hpc : UInt16.ofNat (0x100 + k) + 1 = .ofNat (0x100 + (k + 1)) :=
    (UInt16.ofNat_add (0x100 + k) 1).symm
  simp only [Core.step, Core.dispatch_of_not_pending h.not_pending, hh, Bool.false_eq_true,
    if_false]
  rw [Core.executeNext_of_decode hd, h.cpu, ← hpc]
  rfl

-- Sound is all that the host refuses.
theorem refusal (h : m.Sliding k) :
    (m.core.bus.advance 4 host).refusal =
      (m.core.bus.apu.advance 4).fst.map fun _ => "audio refused" := by
  have hv : (m.core.bus.ppu.advance 4 host).Smooth fun _ => True :=
    h.board.ppu.smooth Deaf.takesLines trivial 4
  simp only [Board.advance, hv.taken]
  cases (m.core.bus.apu.advance 4).fst <;> rfl

-- The buffer is full at the end of the frame, and not before.
theorem sound_advance (h : m.Sliding k) (hk : k < 17556) :
    (∃ frames handed,
      (m.core.bus.apu.advance 4).snd.Buffered sledConfig (4 * (k + 1)) frames handed ∧
        frames.length = 4 * (k + 1) / 16) ∧
    ((m.core.bus.apu.advance 4).fst = none ↔ k + 1 < 17556) := by
  have ⟨frames, handed, hb, hl⟩ := h.sound
  have ha := hb.advance (by decide) (by decide : 4 ≤ 24)
  have hp : sledConfig.samplePeriod = 16 := by decide
  have hf : max 1 sledConfig.bufferFrames = 4389 := by decide
  simp only [h.on, if_true, hp] at ha
  refine ⟨⟨_, _, ha, ?_⟩, ?_⟩
  · rw [List.length_append, List.length_replicate, hl]
    omega
  · have hn := ha.length_handed
    rw [List.length_append, List.length_append, List.length_replicate, hb.length_handed, hl,
      hf] at hn
    cases hx : (m.core.bus.apu.advance 4).fst
    case none =>
      rw [hx, Option.toList_none, List.length_nil] at hn
      simp only [true_iff]
      omega
    case some =>
      rw [hx, Option.toList_some, List.length_singleton] at hn
      simp only [reduceCtorEq, false_iff]
      omega

theorem step (h : m.Sliding k) (hk : k < 17556) (host : Deaf) :
    (m.step host).machine.Sliding (k + 1) ∧
      ((m.step host).error = none ↔ k + 1 < 17556) := by
  have ⟨hs, hn⟩ := h.sound_advance hk
  rw [step_of_ok (h.core_step hk)]
  refine ⟨?_, ?_⟩
  · exact {
      cpu       := rfl
      masked    := by simp [Board.advance, Interrupts.requestIf_enabled, h.masked]
      cartridge := h.cartridge
      board     := h.board.advance (by decide) host
      elapsed   := by rw [h.elapsed, Nat.mul_succ]
      on        := (Apu.advance_enabled ..).trans h.on
      sound     := hs }
  · rw [h.refusal, Option.map_map, Option.map_eq_none_iff]
    exact hn

theorem runFrame (h : m.Sliding k) (hk : k < 17556) :
    (m.runFrame host).machine.Sliding 17556 := by
  induction m, host using Machine.runFrame.induct generalizing k
  case case1 m host hl next he hi =>
    have he := Option.isNone_iff_eq_none.mp he
    obtain ⟨hs, hn⟩ := h.step hk host
    rw [runFrame_of_step_ok hl he]
    exact hi hs (hn.mp he)
  case case2 m host hl next he =>
    have he : (m.step host).error ≠ none := by simpa using he
    obtain ⟨hs, hn⟩ := h.step hk host
    obtain rfl : k = 17555 := by
      have := mt hn.mpr he
      omega
    rw [runFrame_of_step_error hl he]
    exact hs
  case case3 m host hl =>
    have ht : Clock.ticksPerFrame = 70224 := by decide
    rw [h.elapsed, ht] at hl
    omega

theorem stuck (h : m.Sliding 17556) : m.core.Stuck where
  awake     := by rw [h.cpu]; rfl
  closed hp := absurd hp (by simp [h.not_pending])
  undefined := by rw [h.opcode (Nat.le_refl _)]; decide

theorem stoppedBy (h : m.Sliding 17556) : m.StoppedBy { opcode := 0xd3, pc := 0x4594 } := by
  have hs := stoppedBy_of_stuck h.stuck
  rw [h.opcode (Nat.le_refl _), h.cpu] at hs
  exact hs

theorem spent (h : m.Sliding 17556) : m.elapsed = Clock.ticksPerFrame := by
  have ht : Clock.ticksPerFrame = 4 * 17556 := by decide
  rw [h.elapsed, ht]

theorem frame : ((Machine.powerOn .sled sledConfig).runFrame Deaf.mk).machine.Sliding 17556 :=
  powerOn.runFrame (by decide)

end Sliding

theorem illegal_changes_nothing_sled :
    let m := ((powerOn .sled sledConfig).runFrame Deaf.mk).machine
    let e : IllegalInstruction := { opcode := 0xd3, pc := 0x4594 }
    (m.step Deaf.mk).error = some (.illegal e) ∧
    e.pc = m.core.cpu.pc ∧
    e.opcode = m.core.bus.read e.pc ∧
    e.opcode ∈ Instruction.undefined ∧
    m.step Deaf.mk = { machine := m.awake, host := Deaf.mk, error := some (.illegal e) } ∧
    ∀ n, m.awake.RunOn n → m.awake.Unchanged n ∧ n.StoppedBy e := by
  intro m e
  have h : (m.step Deaf.mk).error = some (.illegal e) :=
    congrArg Run.error (Sliding.frame.stoppedBy.step Deaf.mk)
  exact ⟨h, illegal_changes_nothing h⟩

-- The machine does not always stay as it is.
theorem frame_ends_at_illegal_instruction :
    let m := ((powerOn .sled sledConfig).runFrame Deaf.mk).machine
    let s := m.step Deaf.mk
    let r := s.machine.runFrame Deaf.mk
    m.Reachable ∧
    s.error = some (.illegal { opcode := 0xd3, pc := 0x4594 }) ∧
    r.error = none ∧
    s.machine.elapsed = Clock.ticksPerFrame ∧
    r.machine.elapsed = 0 := by
  have hf : sledConfig.Fits := by decide
  have hm := (Reachable.powerOn .sled _ (checkedPowerOn_eq hf)).runFrame Deaf.mk
  exact ⟨hm, Sliding.frame.stoppedBy.endFrame_of_eq Sliding.frame.spent Deaf.mk⟩

end Machine
end DotMatrix
