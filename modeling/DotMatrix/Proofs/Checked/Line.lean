import Mathlib.Tactic.SplitIfs
import DotMatrix.Proofs.Checked.Word
import DotMatrix.Video.Line

namespace DotMatrix

namespace Video

def checkedColorIndex (low high : UInt8) (i : Nat) : Checked UInt8 := do
  let i ← Checked.shift 8 i
  return colorIndex low high i

def checkedShade (palette index : UInt8) : Checked UInt8 := do
  let n ← Checked.mul 8 index.toNat 2
  let n ← Checked.shift 8 n
  return (palette >>> .ofNat n) &&& 0x3

-- The two bytes of a row.
def checkedRow (vram : Memory 0x2000) (address : Nat) : Checked (UInt8 × UInt8) := do
  let i ← Checked.index 0x2000 address
  let next ← Checked.add 64 address 1
  let j ← Checked.index 0x2000 next
  return (vram.get i, vram.get j)

-- A sum of numbers with signs, of which only the result has to be an address.
def checkedTileAddress (unsigned : Bool) (tile : UInt8) : Checked Nat :=
  if unsigned then Checked.mul 64 tile.toNat 16
  else do
    let offset ← Checked.signed 64 (tile.toInt8.toInt * 16)
    let address ← Checked.signed 64 (0x1000 + offset)
    return (address % 0x10000000000000000).toNat

namespace Object

def checkedByte (oam : Memory 0xa0) (start k : Nat) : Checked UInt8 := do
  let a ← Checked.add 64 start k
  let a ← Checked.index 0xa0 a
  return oam.get a

def checkedOfOam (oam : Memory 0xa0) (i : Fin 40) : Checked Object := do
  let start ← Checked.mul 64 4 i
  let y ← checkedByte oam start 0
  let x ← checkedByte oam start 1
  let tile ← checkedByte oam start 2
  let attrs ← checkedByte oam start 3
  return { y, x, tile, attrs, index := i }

end Object

def Object.checkedRow (o : Object) (tall : Bool) (target : Nat) : Checked Nat := do
  let row ← Checked.sub target o.y.toNat
  if o.yFlip then
    let last ← Checked.sub (objectHeight tall) 1
    Checked.sub last row
  else
    return row

def Object.checkedRowAddress (o : Object) (tall : Bool) (row : Nat) : Checked Nat := do
  let tile ← Checked.mul 64 (if tall then o.tile &&& 0xfe else o.tile).toNat 16
  let row ← Checked.mul 64 row 2
  Checked.add 64 tile row

-- The colour index that an object has in a column.
def LineObject.checkedIndexAt (o : LineObject) (column : Nat) : Checked UInt8 := do
  let target ← Checked.add 64 column 8
  let right ← Checked.add 64 o.object.x.toNat 8
  if o.object.x.toNat ≤ target ∧ target < right then
    let offset ← Checked.sub target o.object.x.toNat
    let i ← if o.object.xFlip then pure offset else Checked.sub 7 offset
    checkedColorIndex o.low o.high i
  else
    return 0

theorem colorIndex_lt (low high : UInt8) (i : Nat) : (colorIndex low high i).toNat < 4 := by
  simp only [colorIndex]
  cases testBit high i <;> cases testBit low i <;> decide

theorem checkedColorIndex_eq (low high : UInt8) {i : Nat} (h : i < 8) :
    checkedColorIndex low high i = some (colorIndex low high i) := by
  rw [checkedColorIndex, Checked.shift_eq h]
  rfl

theorem checkedShade_eq (palette : UInt8) {index : UInt8} (h : index.toNat < 4) :
    checkedShade palette index = some (shade palette index) := by
  have hn : UInt8.ofNat (index.toNat * 2) = index * 2 := by
    rw [UInt8.ofNat_mul, UInt8.ofNat_toNat]
    rfl
  rw [checkedShade, Checked.mul_eq (by omega)]
  simp only [Option.bind_eq_bind, Option.bind_some]
  rw [Checked.shift_eq (by omega)]
  simp only [Option.bind_some, hn]
  rfl

theorem shade_le (palette index : UInt8) : shade palette index ≤ 3 := UInt8.and_le_right

theorem checkedRow_eq (vram : Memory 0x2000) {address : Nat} (h : address + 1 < 0x2000) :
    checkedRow vram address =
      some (vram.get ⟨address, Nat.lt_of_succ_lt h⟩, vram.get ⟨address + 1, h⟩) := by
  rw [checkedRow, Checked.index_eq (Nat.lt_of_succ_lt h), Checked.add_eq (by omega)]
  simp only [Option.bind_eq_bind, Option.bind_some]
  rw [Checked.index_eq h]
  rfl

-- Read with its sign a tile's number is 256 less from 80 on.
theorem checkedTileAddress_eq (unsigned : Bool) (tile : UInt8) :
    checkedTileAddress unsigned tile =
      some ((if !unsigned ∧ tile.toNat < 0x80 then 0x1000 else 0) + 16 * tile.toNat) := by
  have ht := tile.toNat_lt
  have hs : tile.toInt8.toInt =
      if 2 * tile.toNat < 0x100 then (tile.toNat : Int) else (tile.toNat : Int) - 0x100 :=
    BitVec.toInt_eq_toNat_cond tile.toBitVec
  cases unsigned
  case true =>
    simp only [checkedTileAddress]
    rw [Checked.mul_eq (by omega)]
    simp only [Bool.not_true, Bool.false_eq_true, false_and, if_false, Nat.zero_add, if_true,
      Nat.mul_comm]
  case false =>
    simp only [checkedTileAddress, Bool.false_eq_true, if_false, hs]
    rw [Checked.signed_eq (by split <;> omega) (by split <;> omega)]
    simp only [Option.bind_eq_bind, Option.bind_some]
    rw [Checked.signed_eq (by split <;> omega) (by split <;> omega)]
    refine congrArg some ?_
    simp only [Bool.not_false, true_and]
    split_ifs <;> omega

theorem Object.checkedOfOam_eq (oam : Memory 0xa0) (i : Fin 40) :
    checkedOfOam oam i = some (ofOam oam i) := by
  have hb (k : Nat) (hk : 4 * i.val + k < 0xa0) :
      checkedByte oam (4 * i) k = some (oam.get ⟨4 * i + k, hk⟩) := by
    rw [checkedByte, Checked.add_eq (by omega)]
    simp only [Option.bind_eq_bind, Option.bind_some]
    rw [Checked.index_eq hk]
    rfl
  rw [checkedOfOam, Checked.mul_eq (by omega)]
  simp only [Option.bind_eq_bind, Option.bind_some]
  rw [hb 0 (by omega), hb 1 (by omega), hb 2 (by omega), hb 3 (by omega)]
  rfl

theorem objectHeight_cases (tall : Bool) : objectHeight tall = 8 ∨ objectHeight tall = 16 := by
  cases tall
  case false => exact .inl rfl
  case true  => exact .inr rfl

theorem Object.checkedRow_eq {o : Object} {tall : Bool} {ly : UInt8} (h : o.Covers tall ly) :
    o.checkedRow tall (ly.toNat + 16) = some (o.row tall ly) := by
  have hl := h.left
  have hh := h.right
  have ht := objectHeight_cases tall
  rw [checkedRow, Checked.sub_eq hl, Checked.sub_eq (by omega)]
  simp only [Option.bind_eq_bind, Option.bind_some, row]
  rw [Checked.sub_eq (by omega)]
  split <;> rfl

-- A mask makes the tile's number even.
theorem Object.checkedRowAddress_eq {o : Object} {tall : Bool} {ly : UInt8} (h : o.Covers tall ly) :
    o.checkedRowAddress tall (o.row tall ly) = some (o.rowAddress tall ly) := by
  have hr := row_lt h
  have ht := objectHeight_cases tall
  have hb := (if tall then o.tile &&& 0xfe else o.tile).toNat_lt
  have hm : (if tall then o.tile &&& 0xfe else o.tile).toNat =
      if tall then o.tile.toNat / 2 * 2 else o.tile.toNat := by
    cases tall
    case false => rfl
    case true =>
      have ht : ∀ v : Fin 256, v.val &&& 0xfe = v.val / 2 * 2 := by decide +kernel
      exact ht o.tile.toFin
  rw [checkedRowAddress, Checked.mul_eq (by omega), Checked.mul_eq (by omega)]
  simp only [Option.bind_eq_bind, Option.bind_some]
  rw [Checked.add_eq (by omega), hm, rowAddress, Nat.mul_comm 16, Nat.mul_comm 2]

theorem LineObject.checkedIndexAt_eq (o : LineObject) {column : Nat} (h : column < 160) :
    o.checkedIndexAt column = some (o.indexAt column) := by
  have hx := o.object.x.toNat_lt
  rw [checkedIndexAt, Checked.add_eq (by omega), Checked.add_eq (by omega)]
  simp only [Option.bind_eq_bind, Option.bind_some, indexAt]
  split
  case isFalse => rfl
  case isTrue hc =>
    rw [Checked.sub_eq hc.left]
    simp only [Option.bind_some]
    rw [Checked.sub_eq (by omega)]
    cases o.object.xFlip
    case true  => exact checkedColorIndex_eq _ _ (by omega)
    case false => exact checkedColorIndex_eq _ _ (by omega)

theorem LineObject.indexAt_lt (o : LineObject) (column : Nat) : (o.indexAt column).toNat < 4 := by
  simp only [indexAt]
  split
  case isTrue  => exact colorIndex_lt ..
  case isFalse => decide

end Video

open Video

namespace Ppu

variable (p : Ppu)

def checkedTilePixel (highMap : Bool) (x y : UInt8) : Checked UInt8 := do
  let line ← Checked.mul 64 32 (y.toNat / 8)
  let cell ← Checked.add 64 (if highMap then 0x1c00 else 0x1800) line
  let cell ← Checked.add 64 cell (x.toNat / 8)
  let cell ← Checked.index 0x2000 cell
  let tile ← checkedTileAddress p.unsignedTiles (p.vram.get cell)
  let row ← Checked.mul 64 (y.toNat % 8) 2
  let row ← Checked.add 64 tile row
  let (low, high) ← checkedRow p.vram row
  let i ← Checked.sub 7 (x.toNat % 8)
  checkedColorIndex low high i

-- The background is drawn first, and then the window over it.
def checkedBackgroundIndex (column : Nat) : Checked UInt8 :=
  if !p.bgEnabled then some 0
  else do
    let background ← p.checkedTilePixel p.bgMapHigh (.ofNat column + p.scx) (p.ly + p.scy)
    if p.windowVisible && p.wx.toNat - 7 ≤ column then
      let x ← Checked.add 64 column 7
      let x ← Checked.sub x p.wx.toNat
      p.checkedTilePixel p.windowMapHigh (.ofNat x) p.wly
    else
      return background

def checkedLineObject? (o : Object) : Checked (Option LineObject) := do
  let target ← Checked.add 64 p.ly.toNat 16
  let bottom ← Checked.add 64 o.y.toNat (objectHeight p.tallObjects)
  if o.y.toNat ≤ target ∧ target < bottom then
    let row ← o.checkedRow p.tallObjects target
    let address ← o.checkedRowAddress p.tallObjects row
    let (low, high) ← checkedRow p.vram address
    return some { object := o, low, high }
  else
    return none

def checkedLineObjects : Checked (List LineObject) := do
  let os ← (List.finRange 40).filterMapM fun i => do
    let o ← Object.checkedOfOam p.oam i
    p.checkedLineObject? o
  return LineObject.sort (os.take objectsPerLine)

def checkedObjectPixel (os : List LineObject) (column : Nat) : Checked (Option (UInt8 × Object)) :=
  os.findSomeM? fun o => do
    let index ← o.checkedIndexAt column
    return if index = 0 then none else some (index, o.object)

def checkedBackground (index : UInt8) : Checked UInt8 :=
  if p.bgEnabled then checkedShade p.bgp index else some 0

def checkedPixel (os : List LineObject) (column : Nat) : Checked UInt8 := do
  let index ← p.checkedBackgroundIndex column
  let background ← p.checkedBackground index
  match ← checkedObjectPixel os column with
  | some (color, o) =>
    if o.underBackground && index != 0 then return background
    else checkedShade (if o.secondPalette then p.obp1 else p.obp0) color
  | none => return background

def checkedRenderLine : Checked Scanline := do
  let os ← if p.objectsEnabled then p.checkedLineObjects else pure []
  Vector.ofFnM fun column => p.checkedPixel os column

theorem checkedTilePixel_eq (highMap : Bool) (x y : UInt8) :
    p.checkedTilePixel highMap x y = some (p.tilePixel highMap x y) := by
  have hx := x.toNat_lt
  have hy := y.toNat_lt
  have hc := (mapCell highMap x y).isLt
  have hr := (tileRow p.unsignedTiles (p.vram.get (mapCell highMap x y)) y).isLt
  have hm : (if highMap then 0x1c00 else 0x1800) + 32 * (y.toNat / 8) + x.toNat / 8 =
    (mapCell highMap x y).val := rfl
  have ht (tile : UInt8) : (if !p.unsignedTiles ∧ tile.toNat < 0x80 then 0x1000 else 0) +
      16 * tile.toNat + y.toNat % 8 * 2 = (tileRow p.unsignedTiles tile y).val := by
    simp only [tileRow, Nat.mul_comm 2]
  rw [checkedTilePixel]
  simp (disch := omega) only [Checked.add_eq, Checked.mul_eq, Option.bind_eq_bind, Option.bind_some]
  rw [hm, Checked.index_eq hc]
  simp only [Option.bind_some, checkedTileAddress_eq, Fin.eta]
  have ht := ht (p.vram.get (mapCell highMap x y))
  rw [Checked.add_eq (by omega), ht]
  simp only [Option.bind_some]
  rw [checkedRow_eq _ (by omega), Checked.sub_eq (by omega)]
  simp only [Option.bind_some]
  exact checkedColorIndex_eq _ _ (by omega)

theorem tilePixel_lt (highMap : Bool) (x y : UInt8) : (p.tilePixel highMap x y).toNat < 4 :=
  colorIndex_lt ..

theorem checkedBackgroundIndex_eq {column : Nat} (h : column < 160) :
    p.checkedBackgroundIndex column = some (p.backgroundIndex column) := by
  have hw : p.wx.toNat - 7 ≤ column ↔ p.wx.toNat ≤ column + 7 := Nat.sub_le_iff_le_add
  simp only [checkedBackgroundIndex, backgroundIndex, checkedTilePixel_eq, hw]
  split
  case isTrue => rfl
  case isFalse =>
    simp only [Option.bind_eq_bind, Option.bind_some]
    split
    case isTrue hv =>
      have hv : p.wx.toNat ≤ column + 7 := of_decide_eq_true (Bool.and_eq_true_iff.mp hv).right
      rw [Checked.add_eq (by omega)]
      simp only [Option.bind_some]
      rw [Checked.sub_eq hv]
      rfl
    case isFalse => rfl

theorem backgroundIndex_lt (column : Nat) : (p.backgroundIndex column).toNat < 4 := by
  simp only [backgroundIndex]
  split
  case isTrue => decide
  case isFalse => split <;> exact p.tilePixel_lt ..

theorem checkedLineObject?_eq (o : Object) : p.checkedLineObject? o = some (p.lineObject? o) := by
  have hy := o.y.toNat_lt
  have hl := p.ly.toNat_lt
  have hh := objectHeight_cases p.tallObjects
  rw [checkedLineObject?, Checked.add_eq (by omega), Checked.add_eq (by omega)]
  simp only [Option.bind_eq_bind, Option.bind_some]
  split
  case isTrue hc =>
    have hc : o.Covers p.tallObjects p.ly := hc
    have ha := Object.rowAddress_lt hc
    rw [lineObject?, dif_pos hc, Object.checkedRow_eq hc]
    simp only [Option.bind_some]
    rw [Object.checkedRowAddress_eq hc]
    simp only [Option.bind_some]
    rw [checkedRow_eq _ (by omega)]
    rfl
  case isFalse hc =>
    have hc : ¬o.Covers p.tallObjects p.ly := hc
    rw [lineObject?, dif_neg hc]
    rfl

theorem checkedLineObjects_eq : p.checkedLineObjects = some p.lineObjects := by
  have ho (i : Fin 40) : (do
      let o ← Object.checkedOfOam p.oam i
      p.checkedLineObject? o) = some (p.lineObject? (.ofOam p.oam i)) := by
    rw [Object.checkedOfOam_eq]
    exact p.checkedLineObject?_eq _
  rw [checkedLineObjects, Checked.filterMapM_eq ho]
  rfl

theorem checkedObjectPixel_eq (os : List LineObject) {column : Nat} (h : column < 160) :
    checkedObjectPixel os column = some (objectPixel os column) := by
  simp only [checkedObjectPixel, LineObject.checkedIndexAt_eq _ h, objectPixel]
  exact List.findSomeM?_pure

theorem objectPixel_lt {os : List LineObject} {column : Nat} {color : UInt8} {o : Object}
    (h : objectPixel os column = some (color, o)) : color.toNat < 4 := by
  have ⟨o, _, ho⟩ := List.exists_of_findSome?_eq_some h
  simp only [Option.ite_none_left_eq_some] at ho
  cases ho.right
  exact o.indexAt_lt column

theorem checkedPixel_eq (os : List LineObject) {column : Nat} (h : column < 160) :
    p.checkedPixel os column = some (p.pixel os column) := by
  have hb : p.checkedBackground (p.backgroundIndex column) =
      some (if p.bgEnabled then shade p.bgp (p.backgroundIndex column) else 0) := by
    rw [checkedBackground, checkedShade_eq _ (p.backgroundIndex_lt column)]
    split <;> rfl
  rw [checkedPixel, p.checkedBackgroundIndex_eq h]
  simp only [Option.bind_eq_bind, Option.bind_some, hb, checkedObjectPixel_eq os h, pixel]
  cases ho : objectPixel os column with
  | none => rfl
  | some shown =>
    dsimp only [Option.bind_some]
    split
    case isTrue  => rfl
    case isFalse => exact checkedShade_eq _ (objectPixel_lt ho)

theorem checkedRenderLine_eq : p.checkedRenderLine = some p.renderLine := by
  have ho (os : List LineObject) : Vector.ofFnM (fun column : Fin 160 => p.checkedPixel os column) =
      some (.ofFn fun column => p.pixel os column) :=
    Checked.ofFnM_eq fun column => p.checkedPixel_eq os column.isLt
  rw [checkedRenderLine, checkedLineObjects_eq, renderLine]
  split
  case isTrue  => exact ho _
  case isFalse => exact ho _

theorem pixel_le (os : List LineObject) (column : Nat) : p.pixel os column ≤ 3 := by
  have hb : (if p.bgEnabled then shade p.bgp (p.backgroundIndex column) else 0) ≤ 3 := by
    split
    · exact shade_le ..
    · decide
  simp only [pixel]
  cases objectPixel os column
  case none   => exact hb
  case some o =>
    dsimp only
    split
    · exact hb
    · exact shade_le ..

theorem renderLine_le : ∀ pixel ∈ p.renderLine, pixel ≤ 3 := by
  intro pixel hp
  obtain ⟨column, hl, rfl⟩ := Vector.getElem_of_mem hp
  rw [renderLine, Vector.getElem_ofFn]
  exact p.pixel_le ..

-- Whatever the memories and the registers hold, no check stops the drawing of a line, and each of
-- its pixels has one of the four shades.
theorem line_always_drawn :
    p.checkedRenderLine = some p.renderLine ∧ ∀ pixel ∈ p.renderLine, pixel ≤ 3 :=
  ⟨p.checkedRenderLine_eq, p.renderLine_le⟩

end Ppu
end DotMatrix
