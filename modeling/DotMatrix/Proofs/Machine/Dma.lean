import Mathlib.Tactic.SplitIfs
import DotMatrix.Machine.Board
import DotMatrix.Proofs.Cartridge.Banks
import DotMatrix.Proofs.Cartridge.Blocks
import DotMatrix.Proofs.Machine.Region

namespace DotMatrix

namespace Board

variable (b : Board) (page : UInt8)

theorem startDma_eq : ∃ dmaPage oam, b.startDma page = { b with dmaPage, ppu.oam := oam } := by
  simp only [startDma]
  split
  · exact ⟨_, _, rfl⟩
  · exact ⟨b.dmaPage, b.ppu.oam, rfl⟩

-- The cartridge takes the writes at its addresses and knows nothing of others.
theorem write_cartridge (a : UInt16) (v : UInt8) :
    (b.write a v).cartridge = b.cartridge.write (a, v) := by
  simp only [write, Cartridge.write]
  split_ifs with hrom hram
  · rw [Region.ofAddress_rom hrom]
  · rw [Region.ofAddress_cartridgeRam hram.left hram.right]
  · cases hr : Region.ofAddress a
    case rom          => exact absurd (Region.spans_of hr) hrom
    case cartridgeRam => exact absurd (Region.spans_of hr) hram
    case dma =>
      obtain ⟨_, _, hd⟩ := b.startDma_eq v
      exact congrArg (·.cartridge) hd
    all_goals rfl

-- The address of a byte of a page.
def pageAddress (page : UInt8) (i : Nat) : UInt16 := page.toUInt16 <<< 8 + .ofNat i

-- The page that is copied. The last two would lie behind the second view of work RAM, where the
-- processor finds other things.
def copiedPage (page : UInt8) : UInt8 := if page ≤ 0xfd then page else page - 0x20

theorem pageStart_toNat (page : UInt8) : (page.toUInt16 <<< 8).toNat = page.toNat * 0x100 := by
  have := page.toNat_lt
  rw [UInt16.toNat_shiftLeft, UInt8.toNat_toUInt16]
  simp [Nat.shiftLeft_eq]
  omega

theorem pageAddress_toNat {i : Nat} (hi : i < 0x100) :
    (pageAddress page i).toNat = page.toNat * 0x100 + i := by
  have hp := pageStart_toNat page
  rw [pageAddress, Cartridge.toNat_add (by decide : 0x100 ∣ 0x10000) (by omega), hp]

theorem read_rom {a : UInt16} (h : a.toNat < 0x8000) : b.read a = b.cartridge.readRom a := by
  rw [read, Region.ofAddress_rom h]

theorem read_vram {a : UInt16} (hl : 0x8000 ≤ a.toNat) (hh : a.toNat < 0xa000) :
    b.read a = b.ppu.vram.read a.toNat := by
  rw [read, Region.ofAddress_vram hl hh]
  rfl

theorem read_cartridgeRam {a : UInt16} (hl : 0xa000 ≤ a.toNat) (hh : a.toNat < 0xc000) :
    b.read a = b.cartridge.readRam a := by
  rw [read, Region.ofAddress_cartridgeRam hl hh]

theorem read_workRam {a : UInt16} (hl : 0xc000 ≤ a.toNat) (hh : a.toNat < 0xfe00) :
    b.read a = b.wram.read a.toNat := by
  rw [read, Region.ofAddress_workRam hl hh]

theorem copiedPage_of_lt {page : UInt8} (h : page.toNat < 0xfe) : copiedPage page = page :=
  if_pos (UInt8.le_iff_toNat_le.mpr (Nat.le_of_lt_succ h))

theorem copiedPage_of_le {page : UInt8} (h : 0xfe ≤ page.toNat) :
    (copiedPage page).toNat = page.toNat - 0x20 := by
  have hp : ¬page ≤ 0xfd := by
    rw [UInt8.le_iff_toNat_le]
    exact Nat.not_le.mpr h
  have := page.toNat_lt
  rw [copiedPage, if_neg hp, UInt8.toNat_sub_of_le]
  · rfl
  · rw [UInt8.le_iff_toNat_le]
    exact Nat.le_trans (by decide) h

theorem dmaBlock?_eq_ofFn : b.dmaBlock? page =
    some (.ofFn fun i : Fin 0xa0 => b.read (pageAddress (copiedPage page) i)) := by
  have hp := page.toNat_lt
  have ha := pageStart_toNat page
  have hi (page : UInt8) (i : Fin 0xa0) := pageAddress_toNat page (i := i.val) (by omega)
  simp only [dmaBlock?, UInt8.lt_iff_toNat_lt, UInt8.toNat_ofNat]
  split_ifs with hrom hvram hram
  case pos =>
    rw [Cartridge.romBlock?_eq_ofFn _ (by rw [ha, Cartridge.romBankSize]; omega),
      copiedPage_of_lt (by omega)]
    refine congrArg (some <| Array.ofFn ·) (funext fun i => ?_)
    have hi := hi page i
    rw [read_rom _ (by omega)]
    rfl
  case pos =>
    rw [b.ppu.vram.block?_eq_ofFn (fun _ => by decide) (by omega), copiedPage_of_lt (by omega)]
    refine congrArg (some <| Array.ofFn ·) (funext fun i => ?_)
    have hi := hi page i
    rw [read_vram _ (by omega) (by omega), hi, ha]
  case pos =>
    rw [Cartridge.ramBlock?_eq_ofFn _ (by rw [ha, Cartridge.ramBankSize]; omega)
      (fun _ => by decide), copiedPage_of_lt (by omega)]
    refine congrArg (some <| Array.ofFn ·) (funext fun i => ?_)
    have hi := hi page i
    rw [read_cartridgeRam _ (by omega) (by omega)]
    rfl
  case neg =>
    rw [b.wram.block?_eq_ofFn (fun _ => by decide) (by omega)]
    refine congrArg (some <| Array.ofFn ·) (funext fun i => ?_)
    have hi := hi (copiedPage page) i
    cases Nat.lt_or_ge page.toNat 0xfe
    case inl h =>
      rw [copiedPage_of_lt h] at hi ⊢
      rw [read_workRam _ (by omega) (by omega), hi, ha]
    case inr h =>
      rw [copiedPage_of_le h] at hi
      rw [read_workRam _ (by omega) (by omega), hi, ha]
      exact Memory.read_congr _ (by omega)

theorem dmaOam?_eq_ofFn : b.dmaOam? page =
    some (.ofFn fun i : Fin 0xa0 => b.read (pageAddress (copiedPage page) i)) := by
  simp only [dmaOam?, dmaBlock?_eq_ofFn, Option.bind_some, Array.size_ofFn, dif_pos]
  rfl

-- A write to the register of the copy always succeeds, and object memory then holds what the
-- processor read from the page just before. Nothing else changes.
theorem write_dma_eq : (b.dmaOam? page).isSome ∧
    b.write 0xff46 page = { b with
      dmaPage := page
      ppu.oam := .ofFn fun i : Fin 0xa0 => b.read (pageAddress (copiedPage page) i) } := by
  have hr : Region.ofAddress 0xff46 = .dma := by decide
  constructor
  · rw [dmaOam?_eq_ofFn]
    rfl
  · rw [write, hr]
    simp only [startDma, dmaOam?_eq_ofFn]

end Board
end DotMatrix
