namespace DotMatrix.Picture

-- A picture with one byte for each pixel, row by row, from 0 for black to 255 for white.
structure Gray where
  width  : Nat
  height : Nat
  pixels : Vector UInt8 (width * height)
  deriving Repr, DecidableEq

-- The picture of some rows of equal length.
def Gray.ofRows {width height : Nat} (rows : Vector (Vector UInt8 width) height) : Gray where
  width
  height
  pixels := rows.flatten.cast (Nat.mul_comm height width)

end DotMatrix.Picture
