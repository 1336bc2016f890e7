namespace DotMatrix

-- Bytes whose addresses wrap around their number.
abbrev Memory (size : Nat) := Vector UInt8 size

namespace Memory

variable {size : Nat}

-- What a read returns where nothing answers.
def openBus : UInt8 := 0xff

def zeros (size : Nat) : Memory size := .replicate size 0

@[inline] def read (m : Memory size) (offset : Nat) : UInt8 :=
  if h : 0 < m.toArray.size then
    have := Nat.mod_lt offset h
    m.toArray[offset % m.toArray.size]
  else
    openBus

-- A memory of no bytes has nowhere to write to.
@[inline] def write (m : Memory size) (offset : Nat) (v : UInt8) : Memory size :=
  if h : 0 < m.toArray.size then
    m.set (offset % m.toArray.size) v (Nat.lt_of_lt_of_eq (Nat.mod_lt _ h) m.size_toArray)
  else
    m

-- The longest block that the open bus answers for.
def openBusLimit : Nat := 0x100

def openBusBlock? (length : Nat) : Option (Array UInt8) :=
  if length ≤ openBusLimit then some (.replicate length openBus) else none

-- A block of consecutive bytes. Only its start wraps, so it must end within the memory.
def block? (m : Memory size) (offset length : Nat) : Option (Array UInt8) :=
  if size = 0 then openBusBlock? length
  else
    let start := offset % size
    if start + length ≤ size then some (m.toArray.extract start (start + length)) else none

theorem read_eq_getElem (m : Memory size) {offset : Nat} (h : offset % size < size) :
    m.read offset = m[offset % size] := by
  simp [read, Nat.zero_lt_of_lt h]

theorem read_of_size_zero (m : Memory 0) (offset : Nat) : m.read offset = openBus := by
  simp [read]

theorem write_eq_set (m : Memory size) {offset : Nat} (v : UInt8) (h : offset % size < size) :
    m.write offset v = m.set (offset % size) v := by
  simp [write, Nat.zero_lt_of_lt h]

theorem read_write_self (m : Memory size) (offset : Nat) (v : UInt8) (h : 0 < size) :
    (m.write offset v).read offset = v := by
  simp [read_eq_getElem, write_eq_set, Nat.mod_lt offset h]

theorem read_write_of_ne (m : Memory size) {i j : Nat} (v : UInt8) (h : i % size ≠ j % size) :
    (m.write i v).read j = m.read j := by
  by_cases hs : 0 < size
  · simp [read_eq_getElem, write_eq_set, Nat.mod_lt _ hs, Vector.getElem_set_ne, h]
  · simp [read, write, hs]

end Memory
end DotMatrix
