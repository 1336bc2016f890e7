namespace DotMatrix.Text.Utf8

def replacement : Char := '\ufffd'

-- A character whose first bytes are read.
structure Partial where
  -- The bits read so far.
  value   : Nat
  missing : Nat
  -- The range that the next byte must lie in.
  low     : UInt8 := 0x80
  high    : UInt8 := 0xbf

-- What a first byte begins: a whole character, the start of a longer one, or nothing.
inductive Start
  | char (c : Char)
  | more (p : Partial)
  | invalid

-- The ranges leave out overlong forms, surrogates and values above the last code point.
def start (b : UInt8) : Start :=
  if b < 0x80 then .char (Char.ofNat b.toNat)
  else if 0xc2 ≤ b ∧ b ≤ 0xdf then .more { value := b.toNat % 0x20, missing := 1 }
  else if b = 0xe0 then .more { value := 0, missing := 2, low := 0xa0 }
  else if b = 0xed then .more { value := 0xd, missing := 2, high := 0x9f }
  else if 0xe1 ≤ b ∧ b ≤ 0xef then .more { value := b.toNat % 0x10, missing := 2 }
  else if b = 0xf0 then .more { value := 0, missing := 3, low := 0x90 }
  else if 0xf1 ≤ b ∧ b ≤ 0xf3 then .more { value := b.toNat % 0x8, missing := 3 }
  else if b = 0xf4 then .more { value := 4, missing := 3, high := 0x8f }
  else .invalid

-- Adds a byte to a partial character if it can go on with it.
def Partial.push? (p : Partial) (b : UInt8) : Option Partial :=
  if p.low ≤ b ∧ b ≤ p.high then
    some { value := p.value * 0x40 + b.toNat % 0x40, missing := p.missing - 1 }
  else
    none

-- Decodes the bytes, the character begun before them included.
def decodeFrom : Option Partial → List UInt8 → List Char
  | none,   []      => []
  | some _, []      => [replacement]
  | none,   b :: bs => fresh b bs
  | some p, b :: bs =>
    match p.push? b with
    | some q => if q.missing = 0 then Char.ofNat q.value :: decodeFrom none bs else decodeFrom (some q) bs
    | none   => replacement :: fresh b bs
where
  -- Decodes from a byte that begins a character.
  fresh (b : UInt8) (bs : List UInt8) : List Char :=
    match start b with
    | .char c  => c :: decodeFrom none bs
    | .more p  => decodeFrom (some p) bs
    | .invalid => replacement :: decodeFrom none bs

-- Each longest piece that begins a character and cannot go on becomes one replacement character.
def decode (bytes : List UInt8) : List Char := decodeFrom none bytes

end DotMatrix.Text.Utf8
