namespace DotMatrix.Bytes

-- The lowest bytes of a number, the lowest first.
def littleEndian : Nat → Nat → List UInt8
  | 0, _         => []
  | width + 1, n => .ofNat n :: littleEndian width (n / 256)

def ofLittleEndian : List UInt8 → Nat
  | []      => 0
  | b :: bs => b.toNat + 256 * ofLittleEndian bs

-- The lowest bytes of a number, the highest of them first.
def bigEndian (width n : Nat) : List UInt8 := (littleEndian width n).reverse

def ofBigEndian (bytes : List UInt8) : Nat := ofLittleEndian bytes.reverse

@[simp]
theorem length_littleEndian (width n : Nat) : (littleEndian width n).length = width := by
  induction width generalizing n with
  | zero => rfl
  | succ width ih => simp [littleEndian, ih]

end DotMatrix.Bytes
