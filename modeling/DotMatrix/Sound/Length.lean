import DotMatrix.Counter

namespace DotMatrix.Sound.Length

-- Ticks per unit of length.
def step : Nat := 16384

-- The counter of a channel whose lengths count up from a programmed value to a maximum. Its first
-- edge is the end.
def counter (maximum initial : Nat) : Counter := .ofPeriod ((maximum - initial) * step)

-- Time counts only while the length is switched on.
def clock (c : Counter) (on : Bool) (ticks : Nat) : Bool × Counter :=
  if on then c.advance ticks else (false, c)

end DotMatrix.Sound.Length
