namespace DotMatrix.Clock

-- Ticks per second.
def frequency : Nat := 1 <<< 22

def visibleLines : Nat := 144

-- Lines of a frame, the ten of the vertical blank included.
def frameLines : Nat := visibleLines + 10

def ticksPerLine : Nat := 456

def ticksPerFrame : Nat := frameLines * ticksPerLine

-- The integer nearest to `num / den`, the even one of two equally near.
def roundDiv (num den : Nat) : Nat :=
  let q := num / den
  let rest := 2 * (num % den)
  if rest < den then q
  else if den < rest then q + 1
  else q + q % 2

-- A stretch of real time.
structure Duration where
  seconds     : Nat
  nanoseconds : Nat
  deriving Repr, DecidableEq

def nanosPerSecond : Nat := 1000000000

-- The time that some ticks take, to the nearest nanosecond.
def duration (ticks : Nat) : Duration :=
  let nanos := roundDiv (ticks * nanosPerSecond) frequency
  { seconds := nanos / nanosPerSecond, nanoseconds := nanos % nanosPerSecond }

end DotMatrix.Clock
