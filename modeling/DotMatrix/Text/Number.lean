namespace DotMatrix.Text

-- The number that some ASCII digits write, of which there has to be one.
def ofDigits (cs : List Char) : Option Nat :=
  if cs ≠ [] ∧ cs.all Char.isDigit then
    some (cs.foldl (fun n c => 10 * n + (c.toNat - '0'.toNat)) 0)
  else
    none

-- Digits, perhaps behind a plus sign.
def natural? : List Char → Option Nat
  | '+' :: cs => ofDigits cs
  | cs        => ofDigits cs

-- Digits, perhaps behind a sign.
def integer? : List Char → Option Int
  | '-' :: cs => (ofDigits cs).map fun n => -n
  | cs        => (natural? cs).map fun n => n

end DotMatrix.Text
