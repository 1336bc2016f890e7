import DotMatrix.Proofs.Checked.Apu
import DotMatrix.Proofs.Checked.Devices
import DotMatrix.Proofs.Checked.Memory
import DotMatrix.Proofs.Machine.Dma

namespace DotMatrix

namespace Region

-- The memories of single pages are indexed by the distance from their first byte.
def checkedOfAddress (a : UInt16) : Checked Region :=
  let n := a.toNat
  if 0xfe00 ≤ n ∧ n < 0xfea0 then do
    let i ← Checked.distance 0xa0 0xfe00 n
    return oam i
  else if 0xff30 ≤ n ∧ n < 0xff40 then do
    let i ← Checked.index 16 (lowByte a &&& 0xf).toNat
    return sound (.wave i)
  else if 0xff80 ≤ n ∧ n < 0xffff then do
    let i ← Checked.distance 0x7f 0x80 (lowByte a).toNat
    return highRam i
  else
    some (ofAddress a)

variable {a : UInt16}

theorem ofDevice_wave {low : UInt8} (h : low >>> 4 = 3) :
    ofDevice low = sound (.wave (.ofNat 16 low.toNat)) := by
  have hr : Sound.Register.ofLow? low = some (.wave (.ofNat 16 low.toNat)) := by
    simp only [Sound.Register.ofLow?]
    split
    case h_22 => exact if_pos h
    all_goals exact absurd h (by decide)
  simp only [ofDevice]
  split
  case h_8 => rw [hr]
  all_goals exact absurd h (by decide)

theorem ofAddress_wave (hl : 0xff30 ≤ a.toNat) (hh : a.toNat < 0xff40) :
    ofAddress a = sound (.wave (.ofNat 16 (lowByte a).toNat)) := by
  have hb := lowByte_toNat a
  have hw : lowByte a >>> 4 = 3 := by
    refine UInt8.toNat_inj.mp ?_
    rw [UInt8.toNat_shiftRight, Nat.shiftRight_eq_div_pow]
    simp only [UInt8.reduceToNat, Nat.reduceMod, Nat.reducePow]
    omega
  simp only [ofAddress]
  split_ifs <;> first | exact ofDevice_wave hw | omega

theorem checkedOfAddress_eq (a : UInt16) : checkedOfAddress a = some (ofAddress a) := by
  have hb := lowByte_toNat a
  simp only [checkedOfAddress]
  split_ifs with ho hw hr
  case pos =>
    rw [Checked.distance_eq ho.left (by omega), ofAddress_oam ho.left ho.right]
    rfl
  case pos =>
    have hm : (lowByte a &&& 0xf).toNat = (lowByte a).toNat % 16 := by
      rw [UInt8.toNat_and]
      exact Nat.and_two_pow_sub_one_eq_mod (lowByte a).toNat 4
    have hl : (lowByte a &&& 0xf).toNat < 16 := hm ▸ Nat.mod_lt _ (by decide)
    rw [Checked.index_eq hl, ofAddress_wave hw.left hw.right]
    exact congrArg (some <| sound <| .wave ·) (Fin.ext hm)
  case pos =>
    rw [Checked.distance_eq (by omega) (by omega), ofAddress_highRam hr.left hr.right]
    exact congrArg (some <| highRam ·) (Fin.ext (by dsimp only; omega))
  case neg => rfl

end Region

namespace Board

def checkedRead (b : Board) (a : UInt16) : Checked UInt8 := do
  match ← Region.checkedOfAddress a with
  | .rom          => b.cartridge.checkedReadRom a
  | .vram         => b.ppu.vram.checkedRead a.toNat
  | .cartridgeRam => b.cartridge.checkedReadRam a
  | .workRam      => b.wram.checkedRead a.toNat
  | _             => return b.read a

def checkedDmaBlock (b : Board) (page : UInt8) : Checked (Array UInt8) :=
  let a := page.toUInt16 <<< 8
  if page < 0x80 then b.cartridge.checkedRomBlock a 0xa0
  else if page < 0xa0 then do
    let start ← Checked.sub a.toNat 0x8000
    b.ppu.vram.checkedExtract start 0xa0
  else if page < 0xc0 then b.cartridge.checkedRamBlock a 0xa0
  else b.wram.checkedBlock a.toNat 0xa0

-- The block must be as long as object memory.
def checkedStartDma (b : Board) (page : UInt8) : Checked Board := do
  let block ← b.checkedDmaBlock page
  if h : block.size = 0xa0 then some { b with dmaPage := page, ppu.oam := ⟨block, h⟩ } else none

def checkedWrite (b : Board) (a : UInt16) (v : UInt8) : Checked Board := do
  match ← Region.checkedOfAddress a with
  | .rom =>
    let cartridge ← b.cartridge.checkedWriteRom a v
    return { b with cartridge }
  | .vram =>
    let vram ← b.ppu.vram.checkedWrite a.toNat v
    return { b with ppu.vram := vram }
  | .cartridgeRam =>
    let cartridge ← b.cartridge.checkedWriteRam a v
    return { b with cartridge }
  | .workRam =>
    let wram ← b.wram.checkedWrite a.toNat v
    return { b with wram }
  | .sound r =>
    let apu ← b.apu.checkedWriteRegister r v
    return { b with apu }
  | .dma => b.checkedStartDma v
  | _    => return b.write a v

def checkedAcknowledge (b : Board) : Checked (Option (Fin 5) × Board) := do
  let (line, interrupts) ← b.interrupts.checkedAcknowledge
  return (line, { b with interrupts })

def checkedHold (b : Board) (directions actions : UInt8) : Checked Board := do
  let (pressed, joypad) := b.joypad.hold directions actions
  let interrupts ← b.interrupts.checkedRequestIf pressed .joypad
  return { b with joypad, interrupts }

variable (b : Board)

theorem checkedRead_eq (a : UInt16) : b.checkedRead a = some (b.read a) := by
  simp only [checkedRead, read, Region.checkedOfAddress_eq, Option.bind_eq_bind, Option.bind_some]
  cases Region.ofAddress a
  case rom          => exact b.cartridge.checkedReadRom_eq a
  case vram         => exact b.ppu.vram.checkedRead_eq (k := 13) rfl _
  case cartridgeRam => exact b.cartridge.checkedReadRam_eq a
  case workRam      => exact b.wram.checkedRead_eq (k := 13) rfl _
  all_goals rfl

theorem checkedDmaBlock_eq (page : UInt8) : b.checkedDmaBlock page = b.dmaBlock? page := by
  have ha := pageStart_toNat page
  simp only [checkedDmaBlock, dmaBlock?, UInt8.lt_iff_toNat_lt, UInt8.toNat_ofNat]
  split_ifs
  case pos => exact b.cartridge.checkedRomBlock_eq _ (by decide)
  case pos =>
    have hs : (page.toUInt16 <<< 8).toNat - 0x8000 = (page.toUInt16 <<< 8).toNat % 0x2000 := by
      omega
    rw [Checked.sub_eq (by omega), hs, Memory.block?, if_neg (by decide)]
    simp only [Option.bind_eq_bind, Option.bind_some]
    rw [Memory.checkedExtract, Checked.add_eq (by omega)]
    rfl
  case pos => exact b.cartridge.checkedRamBlock_eq _ (by decide)
  case neg => exact b.wram.checkedBlock_eq (k := 13) rfl _ (by decide)

theorem checkedStartDma_eq (page : UInt8) : b.checkedStartDma page = some (b.startDma page) := by
  simp only [checkedStartDma, checkedDmaBlock_eq, dmaBlock?_eq_ofFn, startDma, dmaOam?,
    Option.bind_eq_bind, Option.bind_some, Array.size_ofFn, dif_pos]

theorem checkedWrite_eq (a : UInt16) (v : UInt8) : b.checkedWrite a v = some (b.write a v) := by
  simp only [checkedWrite, write, Region.checkedOfAddress_eq, Option.bind_eq_bind, Option.bind_some]
  cases Region.ofAddress a
  case rom          => rw [Cartridge.checkedWriteRom_eq]; rfl
  case vram         => rw [b.ppu.vram.checkedWrite_eq (k := 13) rfl]; rfl
  case cartridgeRam => rw [Cartridge.checkedWriteRam_eq]; rfl
  case workRam      => rw [b.wram.checkedWrite_eq (k := 13) rfl]; rfl
  case sound r      => simp only [Apu.checkedWriteRegister_eq]; rfl
  case dma          => exact b.checkedStartDma_eq v
  all_goals rfl

theorem checkedAcknowledge_eq : b.checkedAcknowledge = some (Bus.acknowledge b) := by
  rw [checkedAcknowledge, Interrupts.checkedAcknowledge_eq]
  rfl

theorem checkedHold_eq (directions actions : UInt8) :
    b.checkedHold directions actions = some (b.hold directions actions) := by
  simp only [checkedHold, Interrupts.checkedRequestIf_eq]
  rfl

end Board
end DotMatrix
