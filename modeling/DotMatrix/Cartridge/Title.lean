import DotMatrix.Cartridge.Basic
import DotMatrix.Text.Blank
import DotMatrix.Text.Utf8

namespace DotMatrix.Cartridge

def titleOffset : Nat := 0x134

def titleLength : Nat := 0x10

-- Up to sixteen bytes, cut at the first zero.
def titleBytes (c : Cartridge) : List UInt8 :=
  let field := c.rom.toArray.extract titleOffset (titleOffset + titleLength)
  field.toList.takeWhile (· != 0)

def title (c : Cartridge) : String :=
  String.ofList (Text.trim (Text.Utf8.decode c.titleBytes))

end DotMatrix.Cartridge
