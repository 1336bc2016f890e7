import DotMatrix.Picture.Png
import DotMatrix.Player.Files
import DotMatrix.Player.Session

namespace DotMatrix.Player

def usage : String :=
  "Runs a ROM without a window for a fixed number of frames.\n\n" ++
  "Usage: dotmatrix [OPTIONS] <ROM_FILE>\n\n" ++
  "Options:\n" ++
  "      --frames <N>          Number of frames to run [default: 600]\n" ++
  "      --sample-rate <N>     Audio sample rate in Hz [default: 48000]\n" ++
  "      --buffer-frames <N>   Stereo frames per audio buffer [default: 1024]\n" ++
  "      --screenshot <FILE>   Write the last frame to this PNG file\n" ++
  "      --input <BUTTONS>     Buttons held down for the whole run, with commas between them\n" ++
  "      --no-save             Neither load nor store battery-backed RAM\n" ++
  "  -h, --help                Print help\n" ++
  "  -V, --version             Print version"

def version : String := "dotmatrix 0.1.0"

-- The contents of a file, if there is one.
def readFile? (path : String) : IO (Option (Array UInt8)) := do
  try
    return some (← IO.FS.readBinFile path).data
  catch
    | .noFileOrDirectory .. => return none
    | e                     => throw e

def writeFile (path : String) (bytes : Array UInt8) : IO Unit := IO.FS.writeBinFile path ⟨bytes⟩

def fail (message : String) (code : UInt32) : IO UInt32 := do
  IO.eprintln s!"error: {message}"
  return code

-- Runs a session to its end. The save file is written even after an error.
def play (o : Options) : IO UInt32 := do
  let rom ← readFile? o.romFile
  let save ← if o.noSave then pure none else readFile? (savePath o.romFile)
  match Session.start o rom save with
  | .error e  => fail e.message 1
  | .ok start =>
    let r := start.runFrames {} o.frames.toNat
    if let some file := r.session.saveFile then writeFile (savePath o.romFile) file
    if let some path := o.screenshot then
      writeFile path (Picture.Png.encode r.output.screen.picture).toArray
    match r.error with
    | some e => fail e.message 1
    | none   => return 0

end DotMatrix.Player

open DotMatrix.Player in
def main (words : List String) : IO UInt32 := do
  match Options.parse words with
  | .ok o                     => play o
  | .error .helpRequested     => IO.println usage; return 0
  | .error .versionRequested  => IO.println version; return 0
  | .error e                  => fail e.message 2
