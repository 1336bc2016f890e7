import DotMatrix.Proofs.Checked.Machine
import DotMatrix.Proofs.Cpu.Halt
import DotMatrix.Proofs.Cpu.WordArithmetic
import DotMatrix.Proofs.Machine.Interrupts
import DotMatrix.Proofs.Machine.Storage

namespace DotMatrix

open Video Sound

-- A step of a sleeping processor that an interrupt has woken and that is closed to it. All requests
-- stay latched, and the next instruction is executed.
structure Core.Resumes (s : Core Board) : Prop where
  unserved : ∀ line, .serve line ∉ s.stepEntries
  dispatch : s.dispatch = (false, { s with cpu := { s.cpu with halted := false } })
  step     : s.step = executeNext { s with cpu := { s.cpu with halted := false } }
  -- That one may send the processor to sleep again.
  halted   : s.step.2.cpu.halted ↔ s.bus.read s.cpu.pc = 0x76

namespace Core

variable {s : Core Board}

theorem pending_eq_false_iff : Bus.pending s.bus = false ↔ s.bus.interrupts.active = 0 := by
  have hp : Bus.pending s.bus = (s.bus.interrupts.active != 0) := rfl
  simp [hp]

-- The processor neither sleeps on nor serves an interrupt.
theorem step_of_awake (hc : s.bus.interrupts.active ≠ 0 → s.cpu.ime = false)
    (hw : s.cpu.halted → s.bus.interrupts.active ≠ 0) :
    s.dispatch = (false, s.awake) ∧ s.step = s.awake.executeNext := by
  have hd : s.dispatch = (false, s.awake) := by
    rw [dispatch_of_closed fun hp => hc (bne_iff_ne.mp hp)]
    split
    case isTrue => rfl
    case isFalse hp =>
      have hh : s.cpu.halted = false := by
        refine Bool.eq_false_iff.mpr fun hh => hp ?_
        exact bne_iff_ne.mpr (hw hh)
      rw [awake_eq hh]
  refine ⟨hd, ?_⟩
  simp only [step, hd]
  rfl

theorem resumes_of_closed (hi : s.cpu.ime = false) (ha : s.bus.interrupts.active ≠ 0) :
    s.Resumes := by
  obtain ⟨hd, hs⟩ := step_of_awake (fun _ => hi) fun _ => ha
  refine ⟨?_, hd, hs, ?_⟩
  case refine_1 => exact unserved_of_not fun hp => by simp [hi] at hp
  case refine_2 =>
    rw [hs]
    exact s.awake.halted_executeNext rfl

theorem step_of_asleep (hh : s.cpu.halted) (ha : s.bus.interrupts.active = 0) :
    s.step = (.ok 4, s) :=
  step_of_halted (pending_eq_false_iff.mpr ha) hh

-- What wakes the processor is an open line.
theorem halted_dispatch_iff (hh : s.cpu.halted) :
    s.dispatch.2.cpu.halted ↔ s.bus.interrupts.active = 0 := by
  rw [← pending_eq_false_iff]
  cases hp : Bus.pending s.bus
  case false => simp [dispatch_of_not_pending hp, hh]
  case true  => simp [halted_dispatch_of_pending hp]

-- After a step the processor sleeps if it has slept on or has been sent to sleep.
theorem asleep_or_halt_of_step (hh : s.step.2.cpu.halted) :
    (s.cpu.halted ∧ s.bus.interrupts.active = 0) ∨
      s.next? = some .halt ∧
        s.step = (.ok 4, { s with cpu := { s.cpu with pc := s.cpu.pc + 1, halted := true } }) := by
  refine or_iff_not_imp_left.mpr fun hs => ?_
  have hc : s.bus.interrupts.active ≠ 0 → s.cpu.ime = false := by
    intro ha
    refine Bool.eq_false_iff.mpr fun hi => ?_
    obtain ⟨line, hl⟩ := serves_of_open hi ha
    rw [hl.step] at hh
    exact Bool.false_ne_true hh
  obtain ⟨hd, he⟩ := step_of_awake hc (not_and.mp hs)
  rw [he, s.awake.halted_executeNext rfl] at hh
  have hn : s.next? = some .halt := by
    simp only [next?, hd]
    exact s.awake.fetched?_eq_halt_iff.mpr hh
  exact ⟨hn, he.trans (executeNext_halt hh)⟩

open Region (Stores) in
-- The word that serving an interrupt puts on the stack is popped again, if the stack is in memory.
theorem Serves.pop {line : Fin 5} (h : s.Serves line) (hl : Stores (s.cpu.sp - 2))
    (hh : Stores (s.cpu.sp - 1)) : s.step.2.pop.1 = s.cpu.pc := by
  have hn : s.cpu.sp - 2 + 1 = s.cpu.sp - 1 := by grind
  have hs : ¬Region.Aliases (s.cpu.sp - 1) (s.cpu.sp - 2) := by
    have ht : (s.cpu.sp - 1).toNat = ((s.cpu.sp - 2).toNat + 1) % 0x10000 := by
      rw [← hn]
      exact UInt16.toNat_add ..
    rintro (he | ⟨_, _, _, _, _⟩)
    case inl =>
      have := congrArg UInt16.toNat he
      omega
    case inr => omega
  have hp (t : Core Board) :
      t.pop.1 = word (t.bus.read t.cpu.sp) (t.bus.read (t.cpu.sp + 1)) := rfl
  rw [h.step, hp]
  simp only [hn, Board.read_write_of_stores _ _ _ hh, Board.read_write_of_stores _ _ _ hl]
  rw [if_neg hs, if_pos (.inl rfl), if_pos (.inl rfl), word_bytes]

end Core

namespace Machine

-- One state follows another by a step, with any host.
inductive StepsTo (m : Machine) : Machine → Prop
  | intro {η : Type} [LineSink η] [SampleSink η] (host : η) : m.StepsTo (m.step host).machine

-- A machine that is run on, with each step from a state of some kind. In between its frames come to
-- their end, and anything may be done to it from outside.
inductive RunsBy (C : Machine → Prop) (m : Machine) : Machine → Prop
  | start : m.RunsBy C m
  | step {n next : Machine} (before : m.RunsBy C n) (here : C n) (step : n.StepsTo next) :
    m.RunsBy C next
  | turn {n : Machine} (before : m.RunsBy C n) (le : Clock.ticksPerFrame ≤ n.elapsed) :
    m.RunsBy C { n with elapsed := n.elapsed - Clock.ticksPerFrame }
  | hold {n : Machine} (before : m.RunsBy C n) (directions actions : UInt8) :
    m.RunsBy C (n.hold directions actions)
  | write {n : Machine} (before : m.RunsBy C n) (a : UInt16) (v : UInt8) :
    m.RunsBy C (n.mapBoard (·.write a v))

def RunsTo (m n : Machine) : Prop := m.RunsBy (fun _ => True) n

-- The run takes no step while an interrupt line is open.
def SleepsTo (m n : Machine) : Prop := m.RunsBy (·.core.bus.interrupts.active = 0) n

-- On the way a step has found an open line. Up to the first one that did, the run has slept.
def WakesBefore (m n : Machine) : Prop :=
  ∃ w next : Machine, m.SleepsTo w ∧ w.core.bus.interrupts.active ≠ 0 ∧ w.StepsTo next ∧
    next.RunsTo n

-- The processor sleeps since it has executed the instruction for that, and no line has been open at
-- the start of a step since.
def FellAsleep (m : Machine) : Prop :=
  ∃ t u : Machine, t.Reachable ∧ t.core.next? = some .halt ∧ t.StepsTo u ∧ u.SleepsTo m ∧
    m.core.cpu = { t.core.cpu with pc := t.core.cpu.pc + 1, halted := true }

-- What a step does while the processor sleeps: time goes on for the devices, and the processor and
-- all memories stay as they are.
structure Dozes (m : Machine) : Prop where
  core_step : m.core.step = (.ok 4, m.core)
  step : ∀ {η : Type} [LineSink η] [SampleSink η] (host : η),
    let b := m.core.bus
    (m.step host).machine = {
      core    := { m.core with bus := { b with
        ppu        := (b.ppu.advance 4 host).ppu
        timer      := (b.timer.advance 4).2
        apu        := (b.apu.advance 4).2
        interrupts := (b.advance 4 host).board.interrupts } }
      elapsed := m.elapsed + 4 }
  memory : ∀ {η : Type} [LineSink η] [SampleSink η] (host : η),
    let b := (m.step host).machine.core.bus
    b.wram = m.core.bus.wram ∧ b.hram = m.core.bus.hram ∧ b.cartridge = m.core.bus.cartridge ∧
      b.ppu.vram = m.core.bus.ppu.vram ∧ b.ppu.oam = m.core.bus.ppu.oam

variable {m n : Machine}

theorem Reachable.turn (h : m.Reachable) (hl : Clock.ticksPerFrame ≤ m.elapsed) :
    Reachable { m with elapsed := m.elapsed - Clock.ticksPerFrame } := by
  have hr := h.runFrame Watched.willing
  rw [runFrame_of_le hl] at hr
  exact hr

section

variable {η : Type} [LineSink η] [SampleSink η]

theorem cpu_step (m : Machine) (host : η) :
    (m.step host).machine.core.cpu = m.core.step.2.cpu := by
  cases hs : m.core.step
  case mk r core =>
    cases r
    case ok    => rw [step_of_ok hs]
    case error => rw [step_of_illegal hs]

theorem RunsTo.runFrame (h : m.RunsTo n) (host : η) : m.RunsTo (n.runFrame host).machine :=
  runFrame_of_kept (fun h _ host => h.step trivial ⟨host⟩) (fun h hl => h.turn hl) h host

theorem step_of_asleep (hh : m.core.cpu.halted) (ha : m.core.bus.interrupts.active = 0)
    (host : η) : m.step host = {
      machine := {
        core    := { m.core with bus := (m.core.bus.advance 4 host).board }
        elapsed := m.elapsed + 4 }
      host    := (m.core.bus.advance 4 host).host
      error   := (m.core.bus.advance 4 host).refusal.map .refused } :=
  step_of_ok (Core.step_of_asleep hh ha)

end

theorem dozes_of_asleep (hh : m.core.cpu.halted) (ha : m.core.bus.interrupts.active = 0) :
    m.Dozes where
  core_step   := Core.step_of_asleep hh ha
  step host   := congrArg Run.machine (step_of_asleep hh ha host)
  memory host := by
    obtain ⟨_, _, _, _, hp⟩ := m.core.bus.ppu.advance_kept 4 host
    rw [step_of_asleep hh ha]
    exact ⟨rfl, rfl, rfl, congrArg (·.vram) hp, congrArg (·.oam) hp⟩

-- However long it sleeps, the processor keeps its registers.
theorem SleepsTo.cpu_eq (h : m.SleepsTo n) (hh : m.core.cpu.halted) :
    n.core.cpu = m.core.cpu := by
  induction h
  case start => rfl
  case step n next _ ha hs ih =>
    obtain ⟨host⟩ := hs
    rw [cpu_step, Core.step_of_asleep (ih ▸ hh) ha]
    exact ih
  case turn ih | hold ih | write ih => exact ih

theorem WakesBefore.imp {k : Machine} (h : m.WakesBefore n)
    (hn : ∀ {u : Machine}, u.RunsTo n → u.RunsTo k) : m.WakesBefore k := by
  obtain ⟨w, next, hw, ha, hs, hr⟩ := h
  exact ⟨w, next, hw, ha, hs, hn hr⟩

-- A run goes on asleep, or there is a first step with an open line.
theorem RunsTo.sleepsTo_or_wakesBefore (h : m.RunsTo n) : m.SleepsTo n ∨ m.WakesBefore n := by
  induction h
  case start => exact .inl .start
  case step n next _ _ hs ih =>
    rcases ih with ih | ih
    case inl =>
      by_cases ha : n.core.bus.interrupts.active = 0
      case pos => exact .inl (ih.step ha hs)
      case neg => exact .inr ⟨n, next, ih, ha, hs, .start⟩
    case inr => exact .inr (ih.imp (·.step trivial hs))
  case turn hl ih  => exact ih.imp (·.turn hl) (·.imp (·.turn hl))
  case hold d a ih => exact ih.imp (·.hold d a) (·.imp (·.hold d a))
  case write a v ih => exact ih.imp (·.write a v) (·.imp (·.write a v))

theorem FellAsleep.step (hr : m.Reachable) (hm : m.core.cpu.halted → m.FellAsleep)
    (hs : m.StepsTo n) (hh : n.core.cpu.halted) : n.FellAsleep := by
  have hn : n.core.cpu = m.core.step.2.cpu := by
    obtain ⟨host⟩ := hs
    exact m.cpu_step host
  rcases Core.asleep_or_halt_of_step (hn ▸ hh) with ⟨hh, ha⟩ | ⟨hi, he⟩
  case inl =>
    obtain ⟨t, u, ht, hi, hu, hl, hc⟩ := hm hh
    refine ⟨t, u, ht, hi, hu, hl.step ha hs, ?_⟩
    rw [hn, Core.step_of_asleep hh ha, hc]
  case inr => exact ⟨m, n, hr, hi, hs, .start, hn.trans (by rw [he])⟩

theorem FellAsleep.congr (h : m.FellAsleep) (hc : n.core.cpu = m.core.cpu)
    (hn : ∀ {u : Machine}, u.SleepsTo m → u.SleepsTo n) : n.FellAsleep := by
  obtain ⟨t, u, ht, hi, hu, hl, he⟩ := h
  exact ⟨t, u, ht, hi, hu, hn hl, hc.trans he⟩

-- The processor never sleeps without having been sent to.
theorem Reachable.fellAsleep (h : m.Reachable) (hh : m.core.cpu.halted) : m.FellAsleep := by
  induction h
  case powerOn on =>
    obtain ⟨apu, _, hm⟩ := Option.bind_eq_some_iff.mp on
    cases hm
    exact absurd hh Bool.false_ne_true
  case hold d a ih => exact (ih hh).congr rfl (·.hold d a)
  case write a v ih => exact (ih hh).congr rfl (·.write a v)
  case step hm _ _ _ _ host ih => exact .step hm ih ⟨host⟩ hh
  case runFrame m hm _ _ _ host ih =>
    have hk := runFrame_of_kept (P := fun m => m.Reachable ∧ (m.core.cpu.halted → m.FellAsleep))
      (fun h hl host => ⟨h.1.step hl host, .step h.1 h.2 ⟨host⟩⟩)
      (fun h hl => ⟨h.1.turn hl, fun hh => (h.2 hh).congr rfl (·.turn hl)⟩) ⟨hm, ih⟩ host
    exact hk.2 hh

open Region (Stores) in
-- A processor sleeps because it was sent to, and goes on sleeping until a step finds an open line,
-- be it in a frame or not. That step wakes it behind the instruction that has sent it to sleep: for
-- the routine of the lowest line, which returns there, or to go on there at once.
theorem sleep_until_open (h : m.Reachable) (hh : m.core.cpu.halted) :
    m.FellAsleep ∧
    (∀ n, m.RunsTo n → (m.SleepsTo n ∨ m.WakesBefore n) ∧
      ∀ {η : Type} [LineSink η] [SampleSink η] (host : η),
        m.RunsTo (n.runFrame host).machine) ∧
    ∀ n, m.SleepsTo n →
      n.core.cpu = m.core.cpu ∧
      (n.core.dispatch.2.cpu.halted ↔ n.core.bus.interrupts.active = 0) ∧
      (n.core.bus.interrupts.active = 0 → n.Dozes) ∧
      (n.core.bus.interrupts.active ≠ 0 → m.core.cpu.ime → ∃ line, n.core.Serves line ∧
        (Stores (m.core.cpu.sp - 2) → Stores (m.core.cpu.sp - 1) →
          n.core.step.2.pop.1 = m.core.cpu.pc)) ∧
      (n.core.bus.interrupts.active ≠ 0 → m.core.cpu.ime = false → n.core.Resumes) := by
  refine ⟨h.fellAsleep hh, fun n hn => ⟨hn.sleepsTo_or_wakesBefore, hn.runFrame⟩, fun n hn => ?_⟩
  have hc : n.core.cpu = m.core.cpu := hn.cpu_eq hh
  rw [← hc] at hh ⊢
  refine ⟨rfl, Core.halted_dispatch_iff hh, dozes_of_asleep hh, fun ha hi => ?_,
    fun ha hi => Core.resumes_of_closed hi ha⟩
  obtain ⟨line, hs⟩ := Core.serves_of_open hi ha
  exact ⟨line, hs, hs.pop⟩

-- A processor that is sent to sleep by its first instruction. It is closed to interrupts, so it
-- goes on where it is as soon as one is pending.
theorem sleep_until_open_lullaby :
    let m := ((powerOn .lullaby {}).step Watched.willing).machine
    let n := (m.mapBoard (·.write 0xffff 1)).mapBoard (·.write 0xff0f 1)
    (m.Reachable ∧ m.core.cpu.halted) ∧ m.FellAsleep ∧ m.Dozes ∧ m.SleepsTo n ∧
      n.core.cpu = m.core.cpu ∧ n.core.Resumes := by
  intro m n
  have hi : m.Idle := idle_lullaby.step
  have hc : m.core.cpu = { Cpu.postBoot with pc := 0x101, halted := true } := by
    have hp : (powerOn .lullaby {}).core.step = _ :=
      Core.step_halt rfl rfl (idle_lullaby.next_opcode rfl)
    rw [cpu_step, hp]
    rfl
  have h : m.Reachable := by
    have hf : Config.Fits {} := by decide
    exact (Reachable.powerOn _ _ (checkedPowerOn_eq hf)).step (by decide) Watched.willing
  have hh : m.core.cpu.halted := hc ▸ rfl
  have ha : m.core.bus.interrupts.active = 0 := by simp [Interrupts.active, hi.masked]
  have hn : n.core.bus.interrupts.active ≠ 0 := by
    have hr : Region.ofAddress 0xffff = .interruptEnable := by decide
    have hb : n.core.bus = (m.core.bus.write 0xffff 1).write 0xff0f 1 := rfl
    rw [hb, Board.write_interruptFlags, Board.write, hr]
    decide
  obtain ⟨hf, -, hs⟩ := sleep_until_open h hh
  have hm : m.SleepsTo n := .write (.write .start ..) ..
  obtain ⟨-, -, hd, -⟩ := hs m .start
  obtain ⟨hr, -, -, -, hw⟩ := hs n hm
  exact ⟨⟨h, hh⟩, hf, hd ha, hm, hr, hw hn (hc ▸ rfl)⟩

end Machine
end DotMatrix
