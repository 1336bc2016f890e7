namespace DotMatrix

-- The time base of every device. Ticks accumulate, and each period that completes is one edge. A
-- counter of period zero never completes, its ticks only accumulate.
structure Counter where
  elapsed : Nat := 0
  period  : Nat := 0
  deriving Repr, DecidableEq, Inhabited

namespace Counter

def ofPeriod (period : Nat) : Counter := { period }

-- A period has completed and is not reported yet.
def Due (c : Counter) : Prop := 0 < c.period ∧ c.period ≤ c.elapsed

instance (c : Counter) : Decidable c.Due := inferInstanceAs (Decidable (_ ∧ _))

def accrue (c : Counter) (ticks : Nat) : Counter := { c with elapsed := c.elapsed + ticks }

-- Takes one completed period off the ticks.
def take (c : Counter) : Counter := { c with elapsed := c.elapsed - c.period }

-- The ticks beyond a completed period count towards the next one.
def advance (c : Counter) (ticks : Nat) : Bool × Counter :=
  let c := c.accrue ticks
  if c.Due then (true, c.take) else (false, c)

theorem Due.take_elapsed_lt {c : Counter} (h : c.Due) : c.take.elapsed < c.elapsed :=
  Nat.sub_lt_of_pos_le h.left h.right

-- The number of due edges, added to those counted so far, and the counter once none is due.
def drain (c : Counter) (edges : Nat) : Nat × Counter :=
  if h : c.Due then c.take.drain (edges + 1) else (edges, c)
termination_by c.elapsed
decreasing_by exact h.take_elapsed_lt

-- The number of edges within the next ticks, and the counter after them.
def run (c : Counter) (ticks : Nat) : Nat × Counter :=
  (c.accrue ticks).drain 0

-- Changes the period and keeps the ticks collected under the old one.
def rearm (c : Counter) (period : Nat) : Counter := { c with period }

def reset (c : Counter) : Counter := { c with elapsed := 0 }

end Counter
end DotMatrix
