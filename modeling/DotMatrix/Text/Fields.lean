namespace DotMatrix.Text

-- The parts between the separators. There is one part more than there are separators.
def fields (separator : Char) : List Char → List (List Char)
  | []      => [[]]
  | c :: cs =>
    if c = separator then [] :: fields separator cs
    else
      match fields separator cs with
      | part :: parts => (c :: part) :: parts
      | []            => [[c]]

end DotMatrix.Text
