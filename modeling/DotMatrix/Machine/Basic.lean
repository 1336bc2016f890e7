import DotMatrix.Cpu.Step
import DotMatrix.Machine.Board
import DotMatrix.Sound.Mixer
import DotMatrix.Video.Schedule

namespace DotMatrix

open Video Sound

inductive MachineError
  | illegal (e : IllegalInstruction)
  -- The host refused a line or a buffer, with its text.
  | refused (text : String)
  deriving Repr, DecidableEq

def MachineError.message : MachineError → String
  | illegal e => e.message
  | refused _ => "Host sink failed"

-- A board that has caught up, and the host's first refusal.
structure Board.Progress (η : Type) where
  board   : Board
  host    : η
  refusal : Option String

-- Lets time pass on the board: picture, timer, sound.
@[specialize]
def Board.advance {η : Type} [LineSink η] [SampleSink η] (b : Board) (ticks : Nat) (host : η) :
    Board.Progress η :=
  let video := b.ppu.advance ticks host
  let (overflows, timer) := b.timer.advance ticks
  let (full, apu) := b.apu.advance ticks
  let interrupts := b.interrupts.requestIf (0 < video.vblanks) .vblank
    |>.requestIf (0 < video.stats) .stat
    |>.requestIf (0 < overflows) .timer
  let (refusal, host) :=
    match full with
    | some buffer => SampleSink.queue video.sink buffer
    | none        => (none, video.sink)
  { board   := { b with ppu := video.ppu, timer, apu, interrupts }
    host
    refusal := video.refusal <|> refusal }

structure Machine where
  core    : Core Board
  -- Ticks spent on the current frame.
  elapsed : Nat := 0

namespace Machine

-- A machine whose boot program has just handed over to the cartridge.
def powerOn (cartridge : Cartridge) (config : Config) : Machine :=
  { core := { cpu := .postBoot, bus := { cartridge, apu := .postBoot config } } }

def cartridge (m : Machine) : Cartridge := m.core.bus.cartridge

def mapBoard (m : Machine) (f : Board → Board) : Machine :=
  { m with core := { m.core with bus := f m.core.bus } }

-- Replaces the held buttons.
def hold (m : Machine) (directions actions : UInt8) : Machine :=
  m.mapBoard fun b => b.hold directions actions

-- Where a run of the machine has come to.
structure Run (η : Type) where
  machine : Machine
  host    : η
  error   : Option MachineError := none

variable {η : Type} [LineSink η] [SampleSink η]

-- One step of the processor, after which the devices catch up by the ticks it took. A host that
-- refuses something is told of at the end of the step, which is carried out in full.
@[specialize]
def step (m : Machine) (host : η) : Run η :=
  match m.core.step with
  | (.error e, core) => { machine := { m with core }, host, error := some (.illegal e) }
  | (.ok ticks, core) =>
    let progress := core.bus.advance ticks host
    { machine := { core := { core with bus := progress.board }, elapsed := m.elapsed + ticks }
      host    := progress.host
      error   := progress.refusal.map .refused }

variable {m : Machine} {host : η} {core : Core Board}

theorem step_of_ok {ticks : Nat} (h : m.core.step = (.ok ticks, core)) :
    m.step host = {
      machine := {
        core    := { core with bus := (core.bus.advance ticks host).board }
        elapsed := m.elapsed + ticks }
      host    := (core.bus.advance ticks host).host
      error   := (core.bus.advance ticks host).refusal.map .refused } := by
  rw [step, h]

theorem step_of_illegal {e : IllegalInstruction} (h : m.core.step = (.error e, core)) :
    m.step host = { machine := { m with core }, host, error := some (.illegal e) } := by
  rw [step, h]

end Machine
end DotMatrix
