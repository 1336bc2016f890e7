import DotMatrix.Text.Hex

namespace DotMatrix

inductive CartridgeError
  | truncated (size : Nat)
  | unknownRomSize (id : UInt8)
  | unknownRamSize (id : UInt8)
  | unknownKind (id : UInt8)
  | largeRom
  | saveMismatch (expected actual : Nat)
  deriving Repr, DecidableEq

open Text in
def CartridgeError.message : CartridgeError → String
  | truncated size      => s!"Provided ROM is too small to hold a header ({size} bytes)"
  | unknownRomSize id   => s!"Unknown ROM size ID: 0x{hex id.toNat}"
  | unknownRamSize id   => s!"Unknown RAM size ID: 0x{hex id.toNat}"
  | unknownKind id      => s!"Unknown cartrige type: 0x{hex id.toNat}"
  | largeRom            => "Provided ROM is too large"
  | saveMismatch expected actual =>
    s!"Save holds {actual} bytes of RAM, but the cartridge has {expected}"

end DotMatrix
