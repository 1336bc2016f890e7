import DotMatrix.Sound.Mixer

namespace DotMatrix.Player

open Sound

-- A meter in the place of a loudspeaker.
structure Loudness where
  buffers : Nat := 0
  -- Samples of both sides.
  samples : Nat := 0
  peak    : Float32 := 0.0

namespace Loudness

-- The greater of a peak and the amplitude of a sample.
def louder (peak sample : Float32) : Float32 :=
  let amplitude := sample.abs
  if peak < amplitude then amplitude else peak

def feed (m : Loudness) (buffer : Array Frame) : Loudness where
  buffers := m.buffers + 1
  samples := m.samples + 2 * buffer.size
  peak    := buffer.foldl (fun peak f => louder (louder peak f.left) f.right) m.peak

instance : SampleSink Loudness := ⟨fun m buffer => (none, m.feed buffer)⟩

end Loudness
end DotMatrix.Player
