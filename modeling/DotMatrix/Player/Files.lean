namespace DotMatrix.Player

-- The last part of a path, and what lies before it.
def splitPath (path : List Char) : List Char × List Char :=
  let (name, directory) := path.reverse.span (· != '/')
  (directory.reverse, name.reverse)

-- A file name without its extension. A point at the very beginning starts none.
def stem (name : List Char) : List Char :=
  match name.reverse.dropWhile (· != '.') with
  | _ :: c :: cs => (c :: cs).reverse
  | _            => name

-- The save file lies next to the ROM file.
def savePath (romFile : String) : String :=
  let (directory, name) := splitPath romFile.toList
  .ofList (directory ++ stem name ++ ".sav".toList)

end DotMatrix.Player
