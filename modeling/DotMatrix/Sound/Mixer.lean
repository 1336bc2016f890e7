import DotMatrix.Sound.Apu

namespace DotMatrix

namespace Sound

-- Takes full buffers of stereo frames, one at a time, and may refuse one with a text.
class SampleSink (η : Type) where
  queue : η → Array Frame → Option String × η

-- The factor for a volume of three bits.
def masterVolume (v : Nat) : Float32 := Float32.ofNat v / 7.0 / 4.0

-- What the four channels put out.
structure Samples where
  ch1 : Float32
  ch2 : Float32
  ch3 : Float32
  ch4 : Float32

-- The sum of the channels that a nibble of the panning register, from bit `low` on, lets through.
def Samples.mix (x : Samples) (panning : UInt8) (low : Nat) : Float32 :=
  let out : Float32 := 0.0
  let out := if testBit panning low then out + x.ch1 else out
  let out := if testBit panning (low + 1) then out + x.ch2 else out
  let out := if testBit panning (low + 2) then out + x.ch3 else out
  if testBit panning (low + 3) then out + x.ch4 else out

end Sound

open Sound

namespace Apu

variable (s : Apu)

-- A channel that is switched off puts out zero.
def samples : Samples where
  ch1 := if s.ch1.pulse.enabled then s.ch1.pulse.amplitude else 0.0
  ch2 := if s.ch2.enabled then s.ch2.amplitude else 0.0
  ch3 := if s.ch3.enabled then s.ch3.amplitude else 0.0
  ch4 := if s.ch4.enabled then s.ch4.amplitude else 0.0

-- The stereo frame of the current moment. The channels are added up for each side in their order.
def frame : Frame :=
  let x := s.samples
  { left  := x.mix s.nr51 4 * masterVolume (bitField s.nr50 4 3)
    right := x.mix s.nr51 0 * masterVolume (bitField s.nr50 0 3) }

-- Lets time pass in the channels.
def clockChannels (ticks : Nat) : Apu :=
  { s with
    ch1 := s.ch1.clock ticks
    ch2 := s.ch2.clock ticks
    ch3 := s.ch3.clock ticks
    ch4 := s.ch4.clock ticks }

-- The buffer that was filled last, if one was, and the frames that wait.
structure Pending where
  full   : Option (Array Frame) := none
  buffer : Array Frame

-- Adds one frame, and starts a new buffer if that fills the old one.
def Pending.push (length : Nat) (f : Frame) (b : Pending) : Pending :=
  let buffer := b.buffer.push f
  if length ≤ 2 * buffer.size then { full := some buffer, buffer := #[] } else { b with buffer }

-- Lets time pass. Returns the buffer that filled up meanwhile; of several, the last one.
def advance (ticks : Nat) : Option (Array Frame) × Apu :=
  if s.enabled then
    let s := s.clockChannels ticks
    let (edges, sampleTicks) := s.sampleTicks.run ticks
    let frame := s.frame
    let start : Pending := { buffer := s.buffer }
    let pending := Nat.repeat (Pending.push s.config.bufferLength frame) edges start
    (pending.full, { s with sampleTicks, buffer := pending.buffer })
  else
    (none, s)

end Apu
end DotMatrix
