import DotMatrix.Proofs.Cpu.Journal
import DotMatrix.Proofs.Machine.Held

namespace DotMatrix

open Video Sound

-- What the traffic with the bus is to the latches. A program reaches them at one address.
def Entry.event? : Entry → Option InterruptEvent
  | read _    => none
  | write a v => if a = 0xff0f then some (.write v) else none
  | serve i   => some (.serve i)

namespace Board

variable {b : Board} {es : List InterruptEvent}

-- Only the register of the latches writes to them.
theorem write_requested (b : Board) {a : UInt16} (v : UInt8) (h : a ≠ 0xff0f) :
    (b.write a v).interrupts.requested = b.interrupts.requested := by
  simp only [write]
  cases hr : Region.ofAddress a
  case interruptFlags => exact absurd (Region.eq_of_ofAddress hr rfl rfl) h
  case dma =>
    obtain ⟨_, _, hd⟩ := b.startDma_eq v
    exact congrArg (·.interrupts.requested) hd
  all_goals rfl

theorem write_interruptFlags (b : Board) (v : UInt8) :
    b.write 0xff0f v = { b with interrupts := b.interrupts.setFlags v } := by
  have hr : Region.ofAddress 0xff0f = .interruptFlags := by decide
  rw [write, hr]

theorem kept_latched (es : List InterruptEvent) : Journal.Kept fun entries (b : Board) =>
    b.interrupts.Latched (es ++ entries.filterMap Entry.event?) where
  read {entries b} h a := by
    have he : Entry.event? (.read a) = none := rfl
    rw [List.filterMap_append, List.filterMap_cons_none he, List.filterMap_nil, List.append_nil]
    exact h
  write {entries b} h a v := by
    rw [List.filterMap_append]
    by_cases ha : a = 0xff0f
    case pos =>
      have he : Entry.event? (.write a v) = some (.write v) := if_pos ha
      rw [List.filterMap_cons_some he, List.filterMap_nil, ← List.append_assoc, ha]
      simp only [Bus.write, write_interruptFlags]
      exact h.setFlags v
    case neg =>
      have he : Entry.event? (.write a v) = none := if_neg ha
      rw [List.filterMap_cons_none he, List.filterMap_nil, List.append_nil]
      exact h.congr (b.write_requested v ha)
  acknowledge {entries b} h := by
    have he : ((Bus.acknowledge b).fst.toList.map Entry.serve).filterMap Entry.event? =
        b.interrupts.acknowledge.fst.toList.map .serve := by
      have hl : (Bus.acknowledge b).fst = b.interrupts.acknowledge.fst := rfl
      rw [hl]
      cases b.interrupts.acknowledge.fst <;> rfl
    rw [List.filterMap_append, he, ← List.append_assoc]
    exact h.acknowledge

section Requests

variable {η : Type} [LineSink η] [SampleSink η]

-- What the devices ask for while time passes.
def requests (b : Board) (ticks : Nat) (host : η) : List InterruptEvent :=
  let video := b.ppu.advance ticks host
  .replicate video.vblanks (.request .vblank) ++ .replicate video.stats (.request .stat) ++
    .replicate (b.timer.advance ticks).fst (.request .timer)

theorem latched_advance (h : b.interrupts.Latched es) (ticks : Nat) (host : η) :
    (b.advance ticks host).board.interrupts.Latched (es ++ b.requests ticks host) := by
  simp only [requests, ← List.append_assoc]
  exact h.requestIf _ .vblank |>.requestIf _ .stat |>.requestIf _ .timer

end Requests

-- What the player asks for by pressing buttons that were not held.
def presses (before now : UInt8 × UInt8) : List InterruptEvent :=
  .replicate (Button.pressed before now).length (.request .joypad)

theorem latched_hold {before : UInt8 × UInt8} (h : b.interrupts.Latched es)
    (hj : b.joypad.held = Joypad.bits before.fst before.snd) (now : UInt8 × UInt8) :
    (b.hold now.fst now.snd).interrupts.Latched (es ++ presses before now) := by
  simp only [hold, Joypad.hold_pressed hj]
  exact h.requestIf _ .joypad

end Board

-- A step of the processor that serves a line: the lowest one that is open. It clears its latch
-- alone, closes the processor to others, and calls the routine of the line. There is no read in it,
-- so no instruction is executed.
structure Core.Serves (s : Core Board) (line : Fin 5) : Prop where
  lowest  : Interrupts.Lowest s.bus.interrupts.active line
  traffic : s.stepEntries = [
    .serve line,
    .write (s.cpu.sp - 2) (lowByte s.cpu.pc),
    .write (s.cpu.sp - 1) (highByte s.cpu.pc)]
  step    : s.step = (.ok 20, {
    cpu := { s.cpu with
      halted := false
      ime    := false
      sp     := s.cpu.sp - 2
      pc     := 0x40 + 8 * .ofNat line }
    bus :=
      { s.bus with
        interrupts.requested := s.bus.interrupts.requested &&& ~~~bitIf true (.ofNat line) }
        |>.write (s.cpu.sp - 2) (lowByte s.cpu.pc)
        |>.write (s.cpu.sp - 1) (highByte s.cpu.pc) })

theorem Core.serves_of_open {s : Core Board} (hi : s.cpu.ime) (ha : s.bus.interrupts.active ≠ 0) :
    ∃ line, s.Serves line := by
  have ⟨line, hl, hk⟩ := Interrupts.acknowledge_of_active ha
  have hp : Bus.pending s.bus := bne_iff_ne.mpr ha
  have hk : Bus.acknowledge s.bus = (some line, { s.bus with
      interrupts.requested := s.bus.interrupts.requested &&& ~~~bitIf true (.ofNat line) }) := by
    simp only [Bus.acknowledge, hk]
  have hsp : s.cpu.sp - 2 + 1 = s.cpu.sp - 1 := by grind
  refine ⟨line, hl, ?_, ?_⟩
  · rw [stepEntries_of_serve hp hi hk, hsp]
  · rw [step_of_serve hp hi hk, hsp]
    rfl

theorem Core.serves_iff {s : Core Board} :
    (∃ line, .serve line ∈ s.stepEntries) ↔ s.cpu.ime ∧ s.bus.interrupts.active ≠ 0 := by
  constructor
  case mp =>
    intro ⟨line, hm⟩
    refine Decidable.byContradiction fun hn => ?_
    exact unserved_of_not (fun ⟨hp, hi⟩ => hn ⟨hi, bne_iff_ne.mp hp⟩) line hm
  case mpr =>
    intro ⟨hi, ha⟩
    have ⟨line, h⟩ := serves_of_open hi ha
    exact ⟨line, h.traffic ▸ List.mem_cons_self⟩

theorem Core.serves_of_mem {s : Core Board} {line : Fin 5} (h : .serve line ∈ s.stepEntries) :
    s.Serves line := by
  have ⟨hi, ha⟩ := serves_iff.mp ⟨line, h⟩
  have ⟨i, hs⟩ := serves_of_open hi ha
  have : line = i := by simpa [hs.traffic] using h
  exact this ▸ hs

namespace Machine

variable {η : Type} [LineSink η] [SampleSink η]

-- A machine with all that has happened to its latches.
structure Watch (η : Type) where
  machine : Machine
  host    : η
  -- The masks of directions and actions that the player gave last.
  held    : UInt8 × UInt8 := (0, 0)
  events  : List InterruptEvent := []

-- What drives a machine from outside.
inductive Move
  | step
  | hold (directions actions : UInt8)

-- What a step does to the latches: the processor comes first, then the devices, unless the
-- instruction is illegal.
def stepEvents (m : Machine) (host : η) : List InterruptEvent :=
  m.core.stepEntries.filterMap Entry.event? ++
    match m.core.step with
    | (.ok ticks, core) => core.bus.requests ticks host
    | (.error _, _)     => []

theorem latched_step {m : Machine} {es : List InterruptEvent}
    (h : m.core.bus.interrupts.Latched es) (host : η) :
    (m.step host).machine.core.bus.interrupts.Latched (es ++ m.stepEvents host) := by
  have hk := (Board.kept_latched es).step (s := m.core) (by simpa using h)
  rw [stepEvents, ← List.append_assoc]
  cases hs : m.core.step
  case mk r core =>
    rw [hs] at hk
    cases r
    case ok ticks =>
      rw [step_of_ok hs]
      exact Board.latched_advance hk ticks host
    case error e =>
      rw [step_of_illegal hs, List.append_nil]
      exact hk

namespace Watch

def powerOn (cartridge : Cartridge) (config : Config) (host : η) : Watch η :=
  { machine := .powerOn cartridge config, host }

def move (s : Watch η) : Move → Watch η
  | .step =>
    { s with
      machine := (s.machine.step s.host).machine
      host    := (s.machine.step s.host).host
      events  := s.events ++ s.machine.stepEvents s.host }
  | .hold directions actions =>
    { s with
      machine := s.machine.hold directions actions
      held    := (directions, actions)
      events  := s.events ++ Board.presses s.held (directions, actions) }

def run (s : Watch η) (moves : List Move) : Watch η := moves.foldl move s

-- The latches tell of the events, and the joypad of the buttons.
structure Faithful (s : Watch η) : Prop where
  latched : s.machine.core.bus.interrupts.Latched s.events
  held    : s.machine.core.bus.joypad.held = Joypad.bits s.held.fst s.held.snd

theorem Faithful.move {s : Watch η} (h : s.Faithful) (m : Move) : (s.move m).Faithful := by
  cases m
  case step => exact ⟨latched_step h.latched s.host, (step_held s.machine s.host).trans h.held⟩
  case hold directions actions =>
    exact ⟨Board.latched_hold h.latched h.held (directions, actions), rfl⟩

theorem Faithful.run {s : Watch η} (h : s.Faithful) (moves : List Move) :
    (s.run moves).Faithful := by
  induction moves generalizing s with
  | nil             => exact h
  | cons m moves ih => exact ih (h.move m)

omit [LineSink η] [SampleSink η] in
theorem faithful_powerOn (cartridge : Cartridge) (config : Config) (host : η) :
    (powerOn cartridge config host).Faithful :=
  have hb : 0 = Joypad.bits 0 0 := by decide
  ⟨.initial, hb⟩

end Watch

open InterruptEvent in
-- Over any run from power-on: a latch is set exactly if the last event that concerns its line is a
-- request or a write that sets it, where the joypad's requests are told from the player's masks;
-- bits without a line stay clear, and only a write sets the bit of the serial link. The next step
-- serves a line exactly if the processor is open to one, and then it does nothing else.
theorem interrupts_of_run (cartridge : Cartridge) (config : Config) (host : η)
    (moves : List Move) :
    let s := (Watch.powerOn cartridge config host).run moves
    let core := s.machine.core
    let latches := core.bus.interrupts
    (∀ line : Fin 5, testBit latches.requested line ↔
      ∃ e, last? line s.events = some e ∧ e.sets line) ∧
    (∀ i : Fin 8, 5 ≤ i.val → testBit latches.requested i = false) ∧
    (testBit latches.requested 3 → ∃ v, last? 3 s.events = some (.write v) ∧ testBit v 3) ∧
    ((∃ line, .serve line ∈ core.stepEntries) ↔
      core.cpu.ime ∧ latches.enabled &&& latches.requested &&& 0x1f ≠ 0) ∧
    ∀ line, .serve line ∈ core.stepEntries → core.Serves line := by
  intro s core latches
  have h : s.Faithful := (Watch.faithful_powerOn cartridge config host).run moves
  have hl (line : Fin 5) : testBit latches.requested line ↔
      ∃ e, last? line s.events = some e ∧ e.sets line := by
    rw [h.latched.line line, Option.any_eq_true]
  refine ⟨hl, h.latched.unwired, fun h3 => ?_, Core.serves_iff, fun _ => Core.serves_of_mem⟩
  have ⟨e, he, hs⟩ := (hl 3).mp h3
  cases e
  -- No device has the line of the serial link.
  case request i =>
    have hc := concerns_of_last? he
    cases i <;> cases hc
  case write v => exact ⟨v, he, hs⟩
  case serve => cases hs

end Machine
end DotMatrix
