import DotMatrix.Machine.Frame
import DotMatrix.Proofs.Cpu.Record
import DotMatrix.Proofs.Sound.Sampling

namespace DotMatrix.Machine

open Video Sound

-- What the devices of a machine have done, with the host that they have done it for.
structure Tally (η : Type) where
  host    : η
  ticks   : Nat := 0
  -- The vertical blanks that the picture unit has asked for.
  vblanks : Nat := 0
  -- The sound unit at the beginning of each stretch of time, with the ticks of the stretch.
  played  : List (Apu × Nat) := []

-- The frames that the sound unit has made.
def Tally.sounds {η : Type} (t : Tally η) : List Frame :=
  t.played.flatMap fun (unit, ticks) => unit.generated ticks

-- A machine between two steps.
structure Moment (η : Type) extends Tally η where
  -- The frames that have come to their end.
  frames  : Nat := 0
  machine : Machine
  -- What the program has written, with the addresses.
  writes  : List (UInt16 × UInt8) := []
  errors  : List MachineError := []

namespace Moment

variable {η : Type}

-- The end of a frame, which is not a step.
def turn (s : Moment η) : Moment η :=
  { s with
    frames  := s.frames + 1
    machine := { s.machine with elapsed := s.machine.elapsed - Clock.ticksPerFrame } }

def hold (s : Moment η) (directions actions : UInt8) : Moment η :=
  { s with machine := s.machine.hold directions actions }

theorem turn_tally (s : Moment η) : s.turn.toTally = s.toTally := by
  rw [turn]

theorem turn_machine (s : Moment η) :
    s.turn.machine = { s.machine with elapsed := s.machine.elapsed - Clock.ticksPerFrame } :=
  rfl

theorem turn_core (s : Moment η) : s.turn.machine.core = s.machine.core := by
  rw [turn_machine]

theorem turn_writes (s : Moment η) : s.turn.writes = s.writes := by
  rw [turn]

end Moment

variable {η : Type} [LineSink η] [SampleSink η]

def Tally.advance (t : Tally η) (b : Board) (ticks : Nat) : Tally η where
  host    := (b.advance ticks t.host).host
  ticks   := t.ticks + ticks
  vblanks := t.vblanks + (b.ppu.advance ticks t.host).vblanks
  played  := t.played ++ [(b.apu, ticks)]

namespace Moment

variable {s : Moment η} {core : Core Board}

-- The devices catch up only with a step that meets no illegal instruction.
def step (s : Moment η) : Moment η :=
  let r := s.machine.step s.host
  { s with
    toTally :=
      match s.machine.core.step with
      | (.ok ticks, core) => s.advance core.bus ticks
      | (.error _, _)     => s.toTally
    machine := r.machine
    writes  := s.writes ++ s.machine.core.stepWrites
    errors  := s.errors ++ r.error.toList }

theorem step_tally_of_ok {ticks : Nat} (h : s.machine.core.step = (.ok ticks, core)) :
    s.step.toTally = s.advance core.bus ticks := by
  simp only [step, h]

theorem step_tally_of_illegal {e : IllegalInstruction}
    (h : s.machine.core.step = (.error e, core)) : s.step.toTally = s.toTally := by
  simp only [step, h]

theorem step_host (s : Moment η) : s.step.host = (s.machine.step s.host).host := by
  cases h : s.machine.core.step
  case mk r core =>
    cases r
    case ok    => rw [step_tally_of_ok h, step_of_ok h, Tally.advance]
    case error => rw [step_tally_of_illegal h, step_of_illegal h]

-- One moment after another.
inductive Next (s : Moment η) : Moment η → Prop
  | step : s.Next s.step
  | turn : Clock.ticksPerFrame ≤ s.machine.elapsed → s.Next s.turn
  | hold (directions actions : UInt8) : s.Next (s.hold directions actions)

-- What is so at one moment is so at the next one.
structure Invariant (I : Moment η → Prop) : Prop where
  step : ∀ {s}, I s → I s.step
  turn : ∀ {s}, I s → Clock.ticksPerFrame ≤ s.machine.elapsed → I s.turn
  hold : ∀ {s}, I s → ∀ directions actions, I (s.hold directions actions)

end Moment

-- What is so of the devices and of what they have done, as long as the program writes in some ways
-- only.
structure Tally.Invariant (W : UInt16 × UInt8 → Prop) (J : Tally η → Board → Prop) : Prop where
  lasting : ∀ t, Lasting W (J t)
  advance : ∀ {t b}, J t b → ∀ ticks, J (t.advance b ticks) (b.advance ticks t.host).board
  hold    : ∀ {t b}, J t b → ∀ directions actions, J t (b.hold directions actions)

theorem Tally.Invariant.moment {W : UInt16 × UInt8 → Prop} {J : Tally η → Board → Prop}
    (hJ : Tally.Invariant W J) :
    Moment.Invariant fun s => (∀ w ∈ s.writes, W w) → J s.toTally s.machine.core.bus where
  turn {s} h _ hw := by
    rw [s.turn_tally, s.turn_core]
    exact h (s.turn_writes ▸ hw)
  hold h directions actions hw := hJ.hold (h hw) directions actions
  step {s} h hw := by
    have hw : ∀ w ∈ s.writes ++ s.machine.core.stepWrites, W w := hw
    have hs := (hJ.lasting s.toTally).step (h fun w hm => hw w (List.mem_append_left _ hm))
      fun w hm => hw w (List.mem_append_right _ hm)
    cases hc : s.machine.core.step
    case mk r core =>
      rw [hc] at hs
      cases r
      case ok ticks =>
        rw [Moment.step_tally_of_ok hc, Moment.step, step_of_ok hc]
        exact hJ.advance hs ticks
      case error =>
        rw [Moment.step_tally_of_illegal hc, Moment.step, step_of_illegal hc]
        exact hs

-- What is asked of a machine.
inductive Call
  | step
  | runFrame
  | hold (directions actions : UInt8)

structure History (η : Type) where
  now  : Moment η
  -- The moments before, the last of them first.
  past : List (Moment η) := []

namespace History

section

variable {η : Type} {h : History η} {I : Moment η → Prop}

def moments (h : History η) : List (Moment η) := h.now :: h.past

def goOn (h : History η) (next : Moment η) : History η := { now := next, past := h.moments }

def powerOn (cartridge : Cartridge) (config : Config) (host : η) : History η where
  now := { host, machine := .powerOn cartridge config }

-- What holds at every moment from some past on.
structure Since (I : Moment η → Prop) (past : List (Moment η)) (h : History η) : Prop where
  now  : I h.now
  past : ∀ s ∈ h.past, s ∈ past ∨ I s

theorem Since.start (h' : I h.now) : h.Since I h.past where
  now       := h'
  past _ hs := .inl hs

theorem Since.goOn {past : List (Moment η)} (h' : h.Since I past) {next : Moment η} (hn : I next) :
    (h.goOn next).Since I past where
  now       := hn
  past s hs := by
    cases List.mem_cons.mp hs
    case inl hs => exact .inr (hs ▸ h'.now)
    case inr hs => exact h'.past s hs

end

-- Runs a frame as the machine does, moment by moment.
def runFrame (h : History η) : History η :=
  if h.now.machine.elapsed < Clock.ticksPerFrame then
    let next := h.goOn h.now.step
    if (h.now.machine.step h.now.host).error.isNone then next.runFrame else next
  else
    h.goOn h.now.turn
termination_by Clock.ticksPerFrame - h.now.machine.elapsed
decreasing_by
  rename_i he
  have : h.now.machine.elapsed < h.now.step.machine.elapsed :=
    step_elapsed_lt (Option.isNone_iff_eq_none.mp he)
  simp only [goOn]
  omega

def call (h : History η) : Call → History η
  | .step                    => h.goOn h.now.step
  | .runFrame                => h.runFrame
  | .hold directions actions => h.goOn (h.now.hold directions actions)

def calls (h : History η) (cs : List Call) : History η := cs.foldl call h

variable {h : History η}

theorem runFrame_of_le (hl : Clock.ticksPerFrame ≤ h.now.machine.elapsed) :
    h.runFrame = h.goOn h.now.turn := by
  rw [runFrame, if_neg (Nat.not_lt.mpr hl)]

theorem runFrame_of_step_ok (hl : h.now.machine.elapsed < Clock.ticksPerFrame)
    (he : (h.now.machine.step h.now.host).error = none) :
    h.runFrame = (h.goOn h.now.step).runFrame := by
  rw [runFrame, if_pos hl]
  simp only [he, Option.isNone_none, if_true]

theorem runFrame_of_step_error (hl : h.now.machine.elapsed < Clock.ticksPerFrame)
    (he : (h.now.machine.step h.now.host).error ≠ none) : h.runFrame = h.goOn h.now.step := by
  have he' : ¬(h.now.machine.step h.now.host).error.isNone := by simpa using he
  rw [runFrame, if_pos hl]
  exact if_neg he'

-- The history goes where the machine goes, and counts the frames that end without an error.
theorem runFrame_now (h : History η) :
    let r := h.now.machine.runFrame h.now.host
    h.runFrame.now.machine = r.machine ∧
    h.runFrame.now.host = r.host ∧
    h.runFrame.now.errors = h.now.errors ++ r.error.toList ∧
    h.runFrame.now.frames = h.now.frames + if r.error = none then 1 else 0 := by
  induction h using runFrame.induct
  case case1 h hl next he hi =>
    have he := Option.isNone_iff_eq_none.mp he
    rw [Machine.runFrame_of_step_ok hl he, runFrame_of_step_ok hl he]
    rw [← h.now.step_host]
    simpa [next, goOn, Moment.step, he] using hi
  case case2 h hl he =>
    have he : (h.now.machine.step h.now.host).error ≠ none := by simpa using he
    rw [Machine.runFrame_of_step_error hl he, runFrame_of_step_error hl he]
    exact ⟨rfl, h.now.step_host, rfl, by rw [if_neg he]; rfl⟩
  case case3 h hl =>
    have hl := Nat.le_of_not_lt hl
    rw [Machine.runFrame_of_le hl, runFrame_of_le hl]
    simp [goOn, Moment.turn]

variable {I : Moment η → Prop} {past : List (Moment η)}

theorem Since.runFrame (hI : Moment.Invariant I) (h' : h.Since I past) :
    h.runFrame.Since I past := by
  induction h using runFrame.induct
  case case1 h hl next he hi =>
    rw [runFrame_of_step_ok hl (Option.isNone_iff_eq_none.mp he)]
    exact hi (h'.goOn (hI.step h'.now))
  case case2 h hl he =>
    rw [runFrame_of_step_error hl (by simpa using he)]
    exact h'.goOn (hI.step h'.now)
  case case3 h hl =>
    have hl := Nat.le_of_not_lt hl
    rw [runFrame_of_le hl]
    exact h'.goOn (hI.turn h'.now hl)

theorem Since.call (hI : Moment.Invariant I) (h' : h.Since I past) (c : Call) :
    (h.call c).Since I past := by
  cases c
  case step     => exact h'.goOn (hI.step h'.now)
  case runFrame => exact h'.runFrame hI
  case hold     => exact h'.goOn (hI.hold h'.now ..)

theorem Since.calls (hI : Moment.Invariant I) (h' : h.Since I past) (cs : List Call) :
    (h.calls cs).Since I past := by
  induction cs generalizing h
  case nil          => exact h'
  case cons c cs hi => exact hi (h'.call hI c)

variable {cartridge : Cartridge} {config : Config} {host : η}

-- The moments of a run up to one of them, that one first.
inductive Trail (start : Moment η) : List (Moment η) → Prop
  | start : Trail start [start]
  | next {s t past} : Trail start (s :: past) → s.Next t → Trail start (t :: s :: past)

namespace Trail

variable {start s : Moment η} {trail : List (Moment η)}

-- Earlier moments have left a trail as well.
theorem suffix (h : Trail start trail) (hs : s :: past <:+ trail) : Trail start (s :: past) := by
  induction h
  case start =>
    cases List.suffix_cons_iff.mp hs
    case inl hs => exact hs ▸ .start
    case inr hs => exact absurd (List.suffix_nil.mp hs) (List.cons_ne_nil _ _)
  case next h hn hi =>
    cases List.suffix_cons_iff.mp hs
    case inl hs => exact hs ▸ h.next hn
    case inr hs => exact hi hs

theorem runFrame (h' : Trail start h.moments) : Trail start h.runFrame.moments := by
  induction h using runFrame.induct
  case case1 h hl next he hi =>
    rw [runFrame_of_step_ok hl (Option.isNone_iff_eq_none.mp he)]
    exact hi (h'.next .step)
  case case2 h hl he =>
    rw [runFrame_of_step_error hl (by simpa using he)]
    exact h'.next .step
  case case3 h hl =>
    have hl := Nat.le_of_not_lt hl
    rw [runFrame_of_le hl]
    exact h'.next (.turn hl)

theorem call (h' : Trail start h.moments) (c : Call) : Trail start (h.call c).moments := by
  cases c
  case step     => exact h'.next .step
  case runFrame => exact h'.runFrame
  case hold     => exact h'.next (.hold ..)

theorem calls (h' : Trail start h.moments) (cs : List Call) : Trail start (h.calls cs).moments := by
  induction cs generalizing h
  case nil          => exact h'
  case cons c cs hi => exact hi (h'.call c)

end Trail

theorem trail_of_suffix {cs : List Call} {s : Moment η}
    (h : s :: past <:+ ((powerOn cartridge config host).calls cs).moments) :
    Trail (powerOn cartridge config host).now (s :: past) :=
  (Trail.start.calls cs).suffix h

end History
end DotMatrix.Machine
