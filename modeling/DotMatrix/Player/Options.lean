import DotMatrix.Joypad
import DotMatrix.Sound.Config
import DotMatrix.Text.Fields
import DotMatrix.Text.Number

namespace DotMatrix.Player

structure Options where
  romFile      : String
  -- How many frames to run.
  frames       : UInt64 := 600
  sampleRate   : UInt32 := 48000
  -- Stereo frames in an audio buffer.
  bufferFrames : UInt64 := 1024
  -- The file for a picture of the last frame.
  screenshot   : Option String := none
  -- The buttons that are held down for the whole run.
  held         : List Button := []
  -- Neither load nor store the cartridge's RAM.
  noSave       : Bool := false
  deriving Repr, DecidableEq

namespace Options

def soundConfig (o : Options) : Sound.Config where
  sampleRate   := o.sampleRate.toNat
  bufferFrames := o.bufferFrames.toNat

-- The masks of the held directions and actions.
def heldMasks (o : Options) : UInt8 × UInt8 := Button.masks o.held

end Options

-- What takes a value on the command line.
inductive Setting
  | romFile
  | frames
  | sampleRate
  | bufferFrames
  | screenshot
  | held
  deriving Repr, DecidableEq

-- Options that stand alone.
inductive Switch
  | noSave
  | help
  | version
  deriving Repr, DecidableEq

-- Why a command line asks for no run.
inductive UsageError
  | unknownArgument (word : String)
  -- The value is missing, or it is none of those that can be given.
  | invalidValue (setting : Setting) (value : String)
  -- The value is no number, or it is out of range.
  | invalidNumber (setting : Setting) (value : String)
  | repeatedSetting (setting : Setting)
  | repeatedSwitch (switch : Switch)
  -- A value for an option that takes none.
  | unwantedValue (switch : Switch)
  | missingRom
  | helpRequested
  | versionRequested
  deriving Repr, DecidableEq

namespace Setting

-- The option's name. The ROM is given by its place and has none.
def name? : Setting → Option String
  | romFile      => none
  | frames       => some "frames"
  | sampleRate   => some "sample-rate"
  | bufferFrames => some "buffer-frames"
  | screenshot   => some "screenshot"
  | held         => some "input"

def all : List Setting := [romFile, frames, sampleRate, bufferFrames, screenshot, held]

def ofName? (name : String) : Option Setting := all.find? (·.name? == some name)

end Setting

namespace Switch

def name : Switch → String
  | noSave  => "no-save"
  | help    => "help"
  | version => "version"

def ofName? (name : String) : Option Switch := [noSave, help, version].find? (·.name == name)

def ofLetter? : Char → Option Switch
  | 'h' => some help
  | 'V' => some version
  | _   => none

end Switch

namespace UsageError

def describe (s : Setting) : String :=
  match s.name? with
  | some name => s!"--{name}"
  | none      => "the ROM file"

def message : UsageError → String
  | unknownArgument word    => s!"unexpected argument '{word}'"
  | invalidValue s value    => s!"invalid value '{value}' for {describe s}"
  | invalidNumber s value   => s!"invalid number '{value}' for {describe s}"
  | repeatedSetting s       => s!"{describe s} can be given only once"
  | repeatedSwitch s        => s!"--{s.name} can be given only once"
  | unwantedValue s         => s!"--{s.name} takes no value"
  | missingRom              => "no ROM file is given"
  | helpRequested           => "help is requested"
  | versionRequested        => "the version is requested"

end UsageError

-- A button as it is written on the command line, in lower-case letters.
def button? (name : List Char) : Option Button :=
  Button.all.find? (·.name.toList.map Char.toLower == name)

-- What the command line has settled so far.
structure Draft where
  romFile      : Option String := none
  frames       : Option UInt64 := none
  sampleRate   : Option UInt32 := none
  bufferFrames : Option UInt64 := none
  screenshot   : Option String := none
  held         : List Button := []
  noSave       : Bool := false

namespace Draft

-- The draft has a value that cannot be given again.
def has (d : Draft) : Setting → Bool
  | .romFile      => d.romFile.isSome
  | .frames       => d.frames.isSome
  | .sampleRate   => d.sampleRate.isSome
  | .bufferFrames => d.bufferFrames.isSome
  | .screenshot   => d.screenshot.isSome
  | .held         => false

def path (s : Setting) (value : String) : Except UsageError String :=
  if value.isEmpty then throw (.invalidValue s value) else return value

def count (s : Setting) (value : String) : Except UsageError UInt64 :=
  match Text.natural? value.toList with
  | some n => if n < UInt64.size then return .ofNat n else throw (.invalidNumber s value)
  | none   => throw (.invalidNumber s value)

-- A rate may be written with a minus sign, which leaves none but zero in range.
def rate (s : Setting) (value : String) : Except UsageError UInt32 :=
  match Text.integer? value.toList with
  | some n =>
    if 0 ≤ n ∧ n.toNat < UInt32.size then return .ofNat n.toNat
    else throw (.invalidNumber s value)
  | none => throw (.invalidNumber s value)

-- The buttons between commas.
def buttons (s : Setting) (value : String) : Except UsageError (List Button) :=
  (Text.fields ',' value.toList).mapM fun name =>
    match button? name with
    | some button => return button
    | none        => throw (.invalidValue s (.ofList name))

-- Takes up the value of a setting.
def set (d : Draft) (s : Setting) (value : String) : Except UsageError Draft := do
  if d.has s then throw (.repeatedSetting s)
  match s with
  | .romFile      => return { d with romFile := ← path s value }
  | .frames       => return { d with frames := ← count s value }
  | .sampleRate   => return { d with sampleRate := ← rate s value }
  | .bufferFrames => return { d with bufferFrames := ← count s value }
  | .screenshot   => return { d with screenshot := ← path s value }
  | .held         => return { d with held := d.held ++ (← buttons s value) }

def toggle (d : Draft) : Switch → Except UsageError Draft
  | .help    => throw .helpRequested
  | .version => throw .versionRequested
  | .noSave  => if d.noSave then throw (.repeatedSwitch .noSave) else return { d with noSave := true }

-- The options that a draft stands for.
def finish (d : Draft) : Except UsageError Options :=
  match d.romFile with
  | none => throw .missingRom
  | some romFile =>
    let o : Options := { romFile }
    return { o with
      frames       := d.frames.getD o.frames
      sampleRate   := d.sampleRate.getD o.sampleRate
      bufferFrames := d.bufferFrames.getD o.bufferFrames
      screenshot   := d.screenshot
      held         := d.held
      noSave       := d.noSave }

end Draft

-- A setting that has been named and is yet to be examined, with its value once that has come.
abbrev Pending := Option (Setting × Option String)

-- Examines the pending setting.
def Draft.settle (d : Draft) : Pending → Except UsageError Draft
  | none            => return d
  | some (s, none)  => throw (.invalidValue s "")
  | some (s, some value) => d.set s value

-- A word of the command line by its form.
inductive Word
  -- Two hyphens, which say that all words after them are plain.
  | separator
  -- Two hyphens and a name, perhaps with an equals sign and a value.
  | long (name : String) (value : Option String)
  -- A hyphen and letters, of which the first one decides.
  | short (letter : Char)
  | plain

namespace Word

-- The text before the first equals sign and the text after it, if there is one.
def splitAtEquals (cs : List Char) : String × Option String :=
  match cs.span (· != '=') with
  | (name, _ :: value) => (.ofList name, some (.ofList value))
  | (name, [])         => (.ofList name, none)

def ofList : List Char → Word
  | ['-', '-']       => separator
  | '-' :: '-' :: cs => let (name, value) := splitAtEquals cs; long name value
  | '-' :: c :: _    => short c
  | _                => plain

end Word

-- Where the reading of a command line has come to.
structure Reading where
  draft   : Draft := {}
  pending : Pending := none
  -- All further words are plain.
  plain   : Bool := false

namespace Reading

def settle (r : Reading) : Except UsageError Reading := return {
  r with draft := ← r.draft.settle r.pending, pending := none }

-- A word that is no option is the ROM file, of which there is one.
def place (r : Reading) (word : String) : Except UsageError Reading := do
  if r.draft.romFile.isSome || r.pending.any (·.1 == .romFile) then throw (.unknownArgument word)
  return { ← r.settle with pending := some (.romFile, some word) }

-- An option that stands alone. The pending setting's own error comes first.
def toggle (r : Reading) (s : Switch) : Except UsageError Reading := do
  let r ← r.settle
  return { r with draft := ← r.draft.toggle s }

-- An option with a value. A value behind an equals sign is examined at once, and one in a word of
-- its own when the word after it has been recognised.
def name (r : Reading) (s : Setting) (value : Option String) : Except UsageError Reading := do
  let r ← r.settle
  match value with
  | none   => return { r with pending := some (s, none) }
  | some v => return { r with draft := ← r.draft.set s v }

def long (r : Reading) (word name : String) (value : Option String) : Except UsageError Reading :=
  match Setting.ofName? name, Switch.ofName? name, value with
  | some s, _,      _      => r.name s value
  | none,   some s, none   => r.toggle s
  | none,   some s, some _ => throw (.unwantedValue s)
  | none,   none,   _      => throw (.unknownArgument word)

-- Takes up one word.
def step (r : Reading) (word : String) : Except UsageError Reading :=
  if r.plain then r.place word
  else
    match Word.ofList word.toList with
    | .separator       => return { r with plain := true }
    | .long name value => r.long word name value
    | .short letter    =>
      match Switch.ofLetter? letter with
      | some s => r.toggle s
      | none   => throw (.unknownArgument word)
    | .plain =>
      match r.pending with
      | some (s, none) => return { r with pending := some (s, some word) }
      | _              => r.place word

end Reading

-- Reads the words of a command line. The first error met is the answer.
def Options.parse (words : List String) : Except UsageError Options := do
  let r ← words.foldlM Reading.step {}
  (← r.settle).draft.finish

end DotMatrix.Player
