namespace DotMatrix.Picture

-- The remainder with 32 bits, lowest bits first, of a byte sequence.
def crc32 (bytes : List UInt8) : UInt32 :=
  ~~~(bytes.foldl (fun r b => Nat.repeat shift 8 (r ^^^ b.toUInt32)) (0xffffffff : UInt32))
where
  -- Divides by one bit.
  shift (r : UInt32) : UInt32 :=
    if r &&& 1 = 1 then (r >>> (1 : UInt32)) ^^^ 0xedb88320 else r >>> (1 : UInt32)

-- The sum of the bytes plus one, and the sum of all those sums, both modulo 65521.
def adler32 (bytes : List UInt8) : Nat :=
  let (low, high) := bytes.foldl (fun (low, high) b =>
    let low := (low + b.toNat) % 65521
    (low, (high + low) % 65521)) (1, 0)
  65536 * high + low

end DotMatrix.Picture
