import DotMatrix.Sound.Apu
import DotMatrix.Video.Ppu

namespace DotMatrix

-- What an address reaches.
inductive Region
  | rom
  | vram
  | cartridgeRam
  | workRam
  | oam (i : Fin 0xa0)
  -- The addresses behind object memory, which hold nothing.
  | unusable
  | joypad
  | div
  | tima
  | tma
  | tac
  | interruptFlags
  | sound (r : Sound.Register)
  | video (r : Video.Register)
  | dma
  -- Addresses among the devices at which there is none.
  | unmapped
  | highRam (i : Fin 0x7f)
  | interruptEnable
  deriving Repr, DecidableEq

namespace Region

-- The devices in FF00-FF7F, by the low byte of the address.
def ofDevice (low : UInt8) : Region :=
  match low with
  | 0x00 => joypad
  | 0x04 => div
  | 0x05 => tima
  | 0x06 => tma
  | 0x07 => tac
  | 0x0f => interruptFlags
  | 0x46 => dma
  | low =>
    match Sound.Register.ofLow? low, Video.Register.ofLow? low with
    | some r, _    => sound r
    | none, some r => video r
    | none, none   => unmapped

-- Work RAM answers twice: at C000-DFFF and, but for its end, at E000-FDFF.
def ofAddress (a : UInt16) : Region :=
  let n := a.toNat
  if n < 0x8000 then rom
  else if n < 0xa000 then vram
  else if n < 0xc000 then cartridgeRam
  else if n < 0xfe00 then workRam
  else if _ : n < 0xfea0 then oam ⟨n - 0xfe00, by omega⟩
  else if n < 0xff00 then unusable
  else if n < 0xff80 then ofDevice (lowByte a)
  else if _ : n < 0xffff then highRam ⟨n - 0xff80, by omega⟩
  else interruptEnable

end Region
end DotMatrix
