import DotMatrix.Bits
import DotMatrix.Cartridge.Header

namespace DotMatrix.Cartridge

-- The registers of the bank controller, as they are at power-on. The lower ROM window is at
-- 0000-3FFF, the upper one at 4000-7FFF, the RAM window at A000-BFFF.
structure BankRegisters where
  -- The low bits of the upper window's ROM bank, never zero.
  primary    : Nat := 1
  -- Two bits for either the high bits of the ROM bank or the RAM bank.
  secondary  : Nat := 0
  -- In this mode the secondary register reaches the lower window and the RAM.
  advanced   : Bool := false
  ramEnabled : Bool := false
  deriving Repr, DecidableEq, Inhabited

namespace Header

-- The number of bits that the primary register keeps.
def primaryBits (h : Header) : Nat := min 5 (h.romCode.val + 1)

-- More banks than the primary register can name.
def largeRom (h : Header) : Bool := 32 < h.romBanks

-- More than one bank of RAM.
def largeRam (h : Header) : Bool := 1 < h.ramSize.banks

end Header

namespace BankRegisters

variable (h : Header) (r : BankRegisters)

-- The ROM bank in the lower window.
def lowerBank : Nat := if r.advanced && h.largeRom then 32 * r.secondary else 0

-- The ROM bank in the upper window.
def upperBank : Nat :=
  if !r.advanced || h.largeRom then 32 * r.secondary + r.primary else r.primary

def ramBank : Nat := if r.advanced && h.largeRam then r.secondary else 0

-- The offset in ROM that an address of the two ROM windows reaches.
def romOffset (a : UInt16) : Nat :=
  match h.kind with
  | .romOnly => a.toNat
  | _ =>
    let bank := if a.toNat.testBit 14 then r.upperBank h else r.lowerBank h
    bank * romBankSize + a.toNat % romBankSize

-- The offset in RAM that an address of the RAM window reaches, unless RAM is disabled.
def ramOffset? (a : UInt16) : Option Nat :=
  match h.kind with
  | .romOnly => some (a.toNat % ramBankSize)
  | _ =>
    if r.ramEnabled then some (r.ramBank h * ramBankSize + a.toNat % ramBankSize) else none

-- A write to the ROM windows: the quarter of 0000-7FFF it falls into picks the register.
def write (a : UInt16) (v : UInt8) : BankRegisters :=
  match h.kind with
  | .romOnly => r
  | _ =>
    match a.toNat / 0x2000 % 4 with
    | 0 => { r with ramEnabled := bitField v 0 4 == 0xa }
    | 1 => { r with primary := max 1 (bitField v 0 h.primaryBits) }
    | 2 => { r with secondary := bitField v 0 2 }
    | _ => { r with advanced := testBit v 0 }

end BankRegisters
end DotMatrix.Cartridge
