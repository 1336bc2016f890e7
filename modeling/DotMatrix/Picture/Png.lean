import DotMatrix.Bytes
import DotMatrix.Picture.Checksum
import DotMatrix.Picture.Gray

namespace DotMatrix.Picture.Png

open Bytes

def signature : List UInt8 := [0x89, 0x50, 0x4e, 0x47, 0x0d, 0x0a, 0x1a, 0x0a]

-- The kinds of chunk that a file needs.
inductive Kind
  | header
  | data
  | finish
  deriving Repr, DecidableEq

def Kind.code : Kind → List UInt8
  | header => "IHDR".toUTF8.toList
  | data   => "IDAT".toUTF8.toList
  | finish => "IEND".toUTF8.toList

-- A chunk: its length, its kind, its contents and the checksum of the last two.
def chunk (kind : Kind) (content : List UInt8) : List UInt8 :=
  let body := kind.code ++ content
  bigEndian 4 content.length ++ body ++ bigEndian 4 (crc32 body).toNat

-- Eight bits of gray, the one known compression and filtering, no interlacing.
def header (width height : Nat) : List UInt8 :=
  bigEndian 4 width ++ bigEndian 4 height ++ [8, 0, 0, 0, 0]

-- The most bytes in a stored block.
def blockSize : Nat := 65535

-- A stored block: whether it is the last one, its length, the complement of that, its bytes.
def block (last : Bool) (bytes : List UInt8) : List UInt8 :=
  .ofNat last.toNat ::
    (littleEndian 2 bytes.length ++ littleEndian 2 (blockSize - bytes.length) ++ bytes)

-- Some bytes as stored blocks.
def blocks (bytes : List UInt8) : List UInt8 :=
  if bytes.length ≤ blockSize then block true bytes
  else block false (bytes.take blockSize) ++ blocks (bytes.drop blockSize)
termination_by bytes.length
decreasing_by
  rw [List.length_drop]
  unfold blockSize at *
  omega

-- A stream of stored blocks between its two-byte header and its checksum.
def stream (bytes : List UInt8) : List UInt8 :=
  [0x78, 0x01] ++ blocks bytes ++ bigEndian 4 (adler32 bytes)

-- A zero in front of each row says that it is not filtered.
def scanlines (p : Gray) : List UInt8 :=
  (List.range p.height).flatMap fun y =>
    0 :: (p.pixels.toArray.extract (y * p.width) (y * p.width + p.width)).toList

-- A picture without compression and without line filters.
def encode (p : Gray) : List UInt8 :=
  signature ++ chunk .header (header p.width p.height) ++ chunk .data (stream (scanlines p)) ++
    chunk .finish []

end DotMatrix.Picture.Png
