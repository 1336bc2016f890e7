import DotMatrix.Cartridge.Error

namespace DotMatrix.Cartridge

def romBankSize : Nat := 0x4000

def ramBankSize : Nat := 0x2000

inductive Kind
  | romOnly
  | mbc1
  | mbc1Ram
  | mbc1Battery
  deriving Repr, DecidableEq

def Kind.ofByte? : UInt8 → Option Kind
  | 0 => some romOnly
  | 1 => some mbc1
  | 2 => some mbc1Ram
  | 3 => some mbc1Battery
  | _ => none

-- Sizes of the external RAM, in the order of their codes.
inductive RamSize
  | absent
  | banks1
  | banks4
  | banks16
  | banks8
  deriving Repr, DecidableEq

namespace RamSize

-- Code 1 was never given a meaning.
def ofByte? : UInt8 → Option RamSize
  | 0 => some absent
  | 2 => some banks1
  | 3 => some banks4
  | 4 => some banks16
  | 5 => some banks8
  | _ => none

def banks : RamSize → Nat
  | absent  => 0
  | banks1  => 1
  | banks4  => 4
  | banks16 => 16
  | banks8  => 8

end RamSize

structure Header where
  kind    : Kind
  -- The ROM has `2 <<< romCode` banks.
  romCode : Fin 7
  ramSize : RamSize
  deriving Repr, DecidableEq

namespace Header

-- Where the header ends, and so the least size of an image.
def endOffset : Nat := 0x150

def romBanks (h : Header) : Nat := 2 <<< h.romCode.val

-- The sizes stay folded, or unification would count them out.
@[irreducible]
def romBytes (h : Header) : Nat := h.romBanks * romBankSize

@[irreducible]
def ramBytes (h : Header) : Nat := h.ramSize.banks * ramBankSize

def battery (h : Header) : Bool := h.kind == .mbc1Battery

def romCode? (id : UInt8) : Option (Fin 7) :=
  if h : id.toNat < 7 then some ⟨id.toNat, h⟩ else none

-- Accepts an image exactly if it holds a whole header, three bytes of it have a meaning, and the
-- image is no longer than the ROM it declares. The order of the checks decides which of two faults
-- is told.
def parse (image : Array UInt8) : Except CartridgeError Header :=
  if h : image.size < endOffset then throw (.truncated image.size)
  else do
    have : 0x150 ≤ image.size := Nat.le_of_not_lt h
    let kindId := image[0x147]
    let romId  := image[0x148]
    let ramId  := image[0x149]
    let some romCode := romCode? romId        | throw (.unknownRomSize romId)
    let some ramSize := RamSize.ofByte? ramId | throw (.unknownRamSize ramId)
    let some kind    := Kind.ofByte? kindId   | throw (.unknownKind kindId)
    let header : Header := { kind, romCode, ramSize }
    if header.romBytes < image.size then throw .largeRom
    return header

end Header
end DotMatrix.Cartridge
