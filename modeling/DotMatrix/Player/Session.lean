import DotMatrix.Cartridge.SaveFile
import DotMatrix.Machine.Frame
import DotMatrix.Player.Loudness
import DotMatrix.Player.Options
import DotMatrix.Player.Screen

namespace DotMatrix.Player

open Video Sound

-- Why a session cannot begin.
inductive SessionError
  | noRom
  | cartridge (e : CartridgeError)
  -- The save file is shorter than it announces to be.
  | corruptSave
  -- No block of memory can hold an audio buffer of the size asked for.
  | bufferTooLarge
  deriving Repr, DecidableEq

def SessionError.message : SessionError → String
  | noRom          => "the ROM cannot be read"
  | cartridge e    => e.message
  | corruptSave    => "the save file is corrupt"
  | bufferTooLarge => "the audio buffer is too large"

-- What the machine's picture and sound go to.
structure Output where
  screen   : Screen := {}
  loudness : Loudness := {}

instance : LineSink Output where
  draw out line pixels :=
    let (refusal, screen) := LineSink.draw out.screen line pixels
    (refusal, { out with screen })

instance : SampleSink Output where
  queue out buffer :=
    let (refusal, loudness) := SampleSink.queue out.loudness buffer
    (refusal, { out with loudness })

-- A machine with its cartridge, held buttons and a save file, which is read before the first frame
-- and written after the last one.
structure Session where
  machine   : Machine
  -- The masks of the held directions and actions.
  held      : UInt8 × UInt8
  -- RAM is kept in the save file.
  keepsSave : Bool

namespace Session

-- The cartridge with the RAM of a save file.
def load (c : Cartridge) (file : Array UInt8) : Except SessionError Cartridge :=
  match SaveFile.decode file with
  | none     => throw .corruptSave
  | some ram => (c.restore ram).mapError .cartridge

-- Begins a session with the contents of the ROM file and, if there is one, of the save file.
def start (o : Options) (rom save : Option (Array UInt8)) : Except SessionError Session := do
  let some image := rom | throw .noRom
  let c ← (Cartridge.ofImage image).mapError .cartridge
  let keepsSave := c.hasBattery && !o.noSave
  let c ← match save with
    | some file => if keepsSave then load c file else pure c
    | none      => pure c
  if ¬o.soundConfig.Fits then throw .bufferTooLarge
  return { machine := .powerOn c o.soundConfig, held := o.heldMasks, keepsSave }

-- Where a session has come to.
structure Run where
  session : Session
  output  : Output := {}
  error   : Option MachineError := none

-- Runs one frame with the buttons held down.
def runFrame (s : Session) (out : Output) : Run :=
  let r := (s.machine.hold s.held.1 s.held.2).runFrame out
  { session := { s with machine := r.machine }, output := r.host, error := r.error }

-- Runs some frames. The first error ends the run.
def runFrames (s : Session) (out : Output) : Nat → Run
  | 0     => { session := s, output := out }
  | n + 1 =>
    let r := s.runFrame out
    if r.error.isSome then r else r.session.runFrames r.output n

-- What the save file is to hold, if it is to be written.
def saveFile (s : Session) : Option (Array UInt8) :=
  if s.keepsSave then s.machine.cartridge.save.map SaveFile.encode else none

end Session
end DotMatrix.Player
