import DotMatrix.Bytes

namespace DotMatrix.SaveFile

-- The size of the field in front that announces how many bytes follow.
def lengthBytes : Nat := 8

-- The number of bytes, its lowest byte first, and then the bytes.
def encode (ram : Array UInt8) : Array UInt8 :=
  (Bytes.littleEndian lengthBytes ram.size).toArray ++ ram

-- How many bytes a file announces.
def announced (file : Array UInt8) : Nat :=
  Bytes.ofLittleEndian (file.extract 0 lengthBytes).toList

-- The announced bytes, if there are that many. Bytes left over are ignored.
def decode (file : Array UInt8) : Option (Array UInt8) :=
  if lengthBytes ≤ file.size ∧ lengthBytes + announced file ≤ file.size then
    some (file.extract lengthBytes (lengthBytes + announced file))
  else
    none

end DotMatrix.SaveFile
