import DotMatrix.Clock

namespace DotMatrix.Sound

-- What the player of the sound asks for.
structure Config where
  sampleRate   : Nat := 48000
  -- Stereo frames in a full buffer.
  bufferFrames : Nat := 1024
  deriving Repr, DecidableEq, Inhabited

namespace Config

-- Ticks between two stereo frames, at least one even for rates above the clock's.
def samplePeriod (c : Config) : Nat := max 1 (Clock.frequency / max 1 c.sampleRate)

-- Samples in a full buffer, two for each frame.
def bufferLength (c : Config) : Nat := max 1 c.bufferFrames * 2

-- The most samples that a buffer can hold. A sample has four bytes, and a block of memory fewer
-- than 2^63.
def maxBufferLength : Nat := (1 <<< 63 - 1) / 4

-- A full buffer can exist.
def Fits (c : Config) : Prop := c.bufferLength ≤ maxBufferLength

instance (c : Config) : Decidable c.Fits := inferInstanceAs (Decidable (_ ≤ _))

end Config
end DotMatrix.Sound
