import DotMatrix.Machine.Basic

namespace DotMatrix

open Video Sound

-- What is asked of a host.
inductive HostCall
  | line (n : Nat) (pixels : Scanline)
  | buffer (frames : Array Frame)

-- A host that answers as the one inside it does. What that one refuses is listed as well.
structure Watched (η : Type) where
  host  : η
  calls : List HostCall := []

namespace Watched

variable {η : Type}

instance [LineSink η] : LineSink (Watched η) where
  draw w n pixels :=
    let (refusal, host) := LineSink.draw w.host n pixels
    (refusal, { host, calls := w.calls ++ [.line n pixels] })

instance [SampleSink η] : SampleSink (Watched η) where
  queue w frames :=
    let (refusal, host) := SampleSink.queue w.host frames
    (refusal, { host, calls := w.calls ++ [.buffer frames] })

-- The lines among the calls, with their numbers.
def lines (w : Watched η) : List (Nat × Scanline) :=
  w.calls.filterMap fun
    | .line n pixels => some (n, pixels)
    | .buffer _      => none

-- The buffers among the calls.
def buffers (w : Watched η) : List (Array Frame) :=
  w.calls.filterMap fun
    | .line _ _      => none
    | .buffer frames => some frames

-- A host whose calls are listed from now on.
def of (host : η) : Watched η := { host }

-- Forgets the calls so far.
def clear (w : Watched η) : Watched η := { host := w.host }

theorem lines_draw [LineSink η] (w : Watched η) (n : Nat) (pixels : Scanline) :
    (LineSink.draw w n pixels).snd.lines = w.lines ++ [(n, pixels)] := by
  simp [LineSink.draw, lines]

theorem lines_queue [SampleSink η] (w : Watched η) (frames : Array Frame) :
    (SampleSink.queue w frames).snd.lines = w.lines := by
  simp [SampleSink.queue, lines]

theorem buffers_draw [LineSink η] (w : Watched η) (n : Nat) (pixels : Scanline) :
    (LineSink.draw w n pixels).snd.buffers = w.buffers := by
  simp [LineSink.draw, buffers]

theorem buffers_queue [SampleSink η] (w : Watched η) (frames : Array Frame) :
    (SampleSink.queue w frames).snd.buffers = w.buffers ++ [frames] := by
  simp [SampleSink.queue, buffers]

end Watched

-- A host that refuses nothing.
structure Willing

instance : LineSink Willing := ⟨fun host _ _ => (none, host)⟩

instance : SampleSink Willing := ⟨fun host _ => (none, host)⟩

def Watched.willing : Watched Willing := { host := {} }

end DotMatrix
