import DotMatrix.Sound.Envelope
import DotMatrix.Sound.Length
import DotMatrix.Sound.Period

namespace DotMatrix.Sound

-- A shift register of fifteen bits.
structure Lfsr where
  bits : UInt16 := 0x7fff
  deriving Repr, DecidableEq, Inhabited

namespace Lfsr

def high (r : Lfsr) : Bool := r.bits &&& 1 == 0

-- Feeds the difference of the two lowest bits back into the highest one, and in the short mode into
-- bit 6 as well.
def shift (short : Bool) (r : Lfsr) : Lfsr :=
  let tap := (r.bits ^^^ (r.bits >>> 1)) &&& 1
  let bits := (r.bits >>> 1) ||| (tap <<< 14)
  { bits := if short then (bits &&& 0xffbf) ||| (tap <<< (6 : UInt16)) else bits }

end Lfsr

structure Noise where
  nr41     : UInt8 := 0
  nr42     : UInt8 := 0
  nr43     : UInt8 := 0
  nr44     : UInt8 := 0
  lfsr     : Lfsr := {}
  ticks    : Counter := {}
  length   : Counter := Length.counter 64 0
  envelope : Envelope := {}
  enabled  : Bool := false
  deriving Repr, DecidableEq, Inhabited

namespace Noise

variable (n : Noise)

-- Ticks per shift: a divisor, doubled as often as the register says.
def period : Nat :=
  let divisor := match bitField n.nr43 0 3 with
    | 0        => 8
    | code + 1 => 16 * (code + 1)
  divisor <<< bitField n.nr43 4 4

def shortMode : Bool := testBit n.nr43 3

-- The counter for the length that is programmed.
def newLength : Counter := Length.counter 64 (bitField n.nr41 0 6)

def setLength (v : UInt8) : Noise :=
  let n := { n with nr41 := v }
  { n with length := n.newLength }

def setVolume (v : UInt8) : Noise := { n with nr42 := v, envelope := .ofRegister v }

def setClock (v : UInt8) : Noise :=
  let n := { n with nr43 := v }
  { n with ticks := n.ticks.rearm n.period }

def trigger : Noise :=
  { n with
    enabled  := true
    lfsr     := {}
    ticks    := .ofPeriod n.period
    length   := n.newLength
    envelope := .ofRegister n.nr42 }

def setControl (v : UInt8) : Noise :=
  let n := { n with nr44 := Control.kept v }
  if Control.triggers v then n.trigger else n

def amplitude : Float32 := n.envelope.apply (if n.lfsr.high then 1.0 else -1.0)

def clock (ticks : Nat) : Noise :=
  if n.enabled then
    let (edges, counter) := n.ticks.run ticks
    let (expired, length) := Length.clock n.length (Control.lengthOn n.nr44) ticks
    { n with
      lfsr     := Nat.repeat (Lfsr.shift n.shortMode) edges n.lfsr
      ticks    := counter
      length   := length
      envelope := n.envelope.clock ticks
      enabled  := !expired }
  else
    n

end Noise
end DotMatrix.Sound
