namespace DotMatrix.Text

-- In lower case.
def hexDigits (n : Nat) : List Char := Nat.toDigits 16 n

-- The digits of a number, with zeros in front up to a width.
def hexPadded (width n : Nat) : String :=
  let digits := hexDigits n
  String.ofList (List.replicate (width - digits.length) '0' ++ digits)

def hex (n : Nat) : String := hexPadded 1 n

end DotMatrix.Text
