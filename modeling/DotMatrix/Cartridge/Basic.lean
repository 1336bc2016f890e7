import DotMatrix.Cartridge.Banking
import DotMatrix.Memory

namespace DotMatrix

-- The header fixes the sizes of both memories.
structure Cartridge where
  header : DotMatrix.Cartridge.Header
  rom    : Memory header.romBytes
  ram    : Memory header.ramBytes
  banks  : DotMatrix.Cartridge.BankRegisters := {}

namespace Cartridge

-- The ROM of an image: the image, and zeros up to the declared size.
def padded (h : Header) (image : Array UInt8) (fits : image.size ≤ h.romBytes) :
    Memory h.romBytes :=
  ⟨image ++ Array.replicate (h.romBytes - image.size) 0, by
    rw [Array.size_append, Array.size_replicate]
    exact Nat.add_sub_cancel' fits⟩

-- Accepts an image, with all of its RAM zero, or tells what is wrong with its header.
def ofImage (image : Array UInt8) : Except CartridgeError Cartridge := do
  let header ← Header.parse image
  if fits : image.size ≤ header.romBytes then
    return { header, rom := padded header image fits, ram := Memory.zeros _ }
  else
    throw .largeRom

def readRom (c : Cartridge) (a : UInt16) : UInt8 := c.rom.read (c.banks.romOffset c.header a)

-- ROM itself cannot be written: the write goes to the bank registers.
def writeRom (c : Cartridge) (a : UInt16) (v : UInt8) : Cartridge :=
  { c with banks := c.banks.write c.header a v }

def readRam (c : Cartridge) (a : UInt16) : UInt8 :=
  match c.banks.ramOffset? c.header a with
  | some offset => c.ram.read offset
  | none        => Memory.openBus

def writeRam (c : Cartridge) (a : UInt16) (v : UInt8) : Cartridge :=
  match c.banks.ramOffset? c.header a with
  | some offset => { c with ram := c.ram.write offset v }
  | none        => c

-- Consecutive bytes of ROM as banked now. A block that leaves its memory has no answer.
def romBlock? (c : Cartridge) (a : UInt16) (length : Nat) : Option (Array UInt8) :=
  c.rom.block? (c.banks.romOffset c.header a) length

-- Consecutive bytes of RAM as banked now, or of the open bus while RAM is disabled.
def ramBlock? (c : Cartridge) (a : UInt16) (length : Nat) : Option (Array UInt8) :=
  match c.banks.ramOffset? c.header a with
  | some offset => c.ram.block? offset length
  | none        => Memory.openBusBlock? length

def hasBattery (c : Cartridge) : Bool := c.header.battery

-- The contents of RAM, for cartridges that keep it.
def save (c : Cartridge) : Option (Array UInt8) :=
  if c.hasBattery then some c.ram.toArray else none

-- Replaces the contents of RAM.
def restore (c : Cartridge) (ram : Array UInt8) : Except CartridgeError Cartridge :=
  if h : ram.size = c.header.ramBytes then return { c with ram := ⟨ram, h⟩ }
  else throw (.saveMismatch c.header.ramBytes ram.size)

end Cartridge
end DotMatrix
