import DotMatrix.Memory
import DotMatrix.Sound.Length
import DotMatrix.Sound.Period

namespace DotMatrix.Sound

-- Thirty-two samples of four bits, in each byte the high one first.
structure Wave where
  ram      : Memory 16 := .zeros _
  nr30     : UInt8 := 0
  nr31     : UInt8 := 0
  nr32     : UInt8 := 0
  nr33     : UInt8 := 0
  nr34     : UInt8 := 0
  position : BitVec 5 := 0
  ticks    : Counter := {}
  length   : Counter := Length.counter 256 0
  enabled  : Bool := false
  deriving DecidableEq, Inhabited

namespace Wave

variable (w : Wave)

-- The converter behind the channel is switched on.
def converterOn : Bool := testBit w.nr30 7

def frequency : Nat := Sound.frequency w.nr33 w.nr34

-- Ticks per sample of the wave.
def period : Nat := periodOf 2 w.frequency

-- The counter for the length that is programmed.
def newLength : Counter := Length.counter 256 w.nr31.toNat

-- Without its converter the channel cannot sound.
def setConverter (v : UInt8) : Wave :=
  { w with nr30 := v, enabled := w.enabled && testBit v 7 }

def setLength (v : UInt8) : Wave :=
  let w := { w with nr31 := v }
  { w with length := w.newLength }

def setLevel (v : UInt8) : Wave := { w with nr32 := v }

-- Fits the wave to the frequency that is set, without a new start.
def rearm : Wave := { w with ticks := w.ticks.rearm w.period }

def setLow (v : UInt8) : Wave := { w with nr33 := v }.rearm

def trigger : Wave :=
  { w with
    enabled  := w.converterOn
    position := 0
    ticks    := .ofPeriod w.period
    length   := w.newLength }

def setControl (v : UInt8) : Wave :=
  let w := { w with nr34 := Control.kept v }.rearm
  if Control.triggers v then w.trigger else w

-- The state without power, in which only the memory is left.
def powerOff : Wave := { ram := w.ram }

def rawSample : UInt8 :=
  have := w.position.isLt
  let b := w.ram.get ⟨w.position.toNat / 2, by omega⟩
  if w.position.toNat % 2 = 0 then b >>> 4 else b &&& 0xf

-- Each output level above the first halves the sample once more.
def amplitude : Float32 :=
  match bitField w.nr32 5 2 with
  | 0 => 0.0
  | level + 1 => (w.rawSample >>> .ofNat level).toFloat32 / 7.5 - 1.0

def clock (ticks : Nat) : Wave :=
  if w.enabled then
    let (edges, counter) := w.ticks.run ticks
    let (expired, length) := Length.clock w.length (Control.lengthOn w.nr34) ticks
    { w with
      position := w.position + .ofNat 5 edges
      ticks    := counter
      length   := length
      enabled  := !expired }
  else
    w

end Wave
end DotMatrix.Sound
