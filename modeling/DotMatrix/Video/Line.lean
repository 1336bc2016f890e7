import DotMatrix.Video.Ppu

namespace DotMatrix

namespace Video

def screenWidth : Nat := 160

-- The shades of a line from left to right, 0 for the lightest and 3 for the darkest.
abbrev Scanline := Vector UInt8 160

def Scanline.blank : Scanline := .replicate 160 0

-- The colour index of a pixel of a tile's row, counted from the right. The row has two bytes: the
-- low bits of the indices, and the high ones.
def colorIndex (low high : UInt8) (i : Nat) : UInt8 :=
  bitIf (testBit high i) 1 ||| bitIf (testBit low i) 0

-- The shade that a palette gives to a colour index.
def shade (palette index : UInt8) : UInt8 := (palette >>> (index * 2)) &&& 0x3

-- The cell of a map of 32 by 32 tiles that shows a point of its 256 by 256 picture.
def mapCell (highMap : Bool) (x y : UInt8) : Fin 0x2000 :=
  ⟨(if highMap then 0x1c00 else 0x1800) + 32 * (y.toNat / 8) + x.toNat / 8, by
    have := x.toNat_lt
    have := y.toNat_lt
    split <;> omega⟩

-- Where the row of a background tile begins. Tiles 80-FF lie in the middle third of tile memory;
-- those below lie before them, or after them if tile numbers are taken as signed.
def tileRow (unsigned : Bool) (tile y : UInt8) : Fin 0x1fff :=
  ⟨(if !unsigned ∧ tile.toNat < 0x80 then 0x1000 else 0) + 16 * tile.toNat + 2 * (y.toNat % 8), by
    have := tile.toNat_lt
    split <;> omega⟩

-- An object as its four bytes in object memory describe it.
structure Object where
  y     : UInt8
  x     : UInt8
  tile  : UInt8
  attrs : UInt8
  index : Fin 40
  deriving Repr, DecidableEq

namespace Object

def ofOam (oam : Memory 0xa0) (i : Fin 40) : Object where
  y     := oam.get ⟨4 * i, by omega⟩
  x     := oam.get ⟨4 * i + 1, by omega⟩
  tile  := oam.get ⟨4 * i + 2, by omega⟩
  attrs := oam.get ⟨4 * i + 3, by omega⟩
  index := i

variable (o : Object)

def secondPalette : Bool := testBit o.attrs 4

def xFlip : Bool := testBit o.attrs 5

def yFlip : Bool := testBit o.attrs 6

def underBackground : Bool := testBit o.attrs 7

end Object

def objectHeight (tall : Bool) : Nat := if tall then 16 else 8

-- An object's coordinates count from 16 lines above and 8 columns left of the screen.
def Object.Covers (o : Object) (tall : Bool) (ly : UInt8) : Prop :=
  o.y.toNat ≤ ly.toNat + 16 ∧ ly.toNat + 16 < o.y.toNat + objectHeight tall

instance (o : Object) (tall : Bool) (ly : UInt8) : Decidable (o.Covers tall ly) :=
  inferInstanceAs (Decidable (_ ∧ _))

-- The row of the object's picture that lies on a line.
def Object.row (o : Object) (tall : Bool) (ly : UInt8) : Nat :=
  let row := ly.toNat + 16 - o.y.toNat
  if o.yFlip then objectHeight tall - 1 - row else row

-- A tall object shows an even tile and the one after it.
def Object.rowAddress (o : Object) (tall : Bool) (ly : UInt8) : Nat :=
  16 * (if tall then o.tile.toNat / 2 * 2 else o.tile.toNat) + 2 * o.row tall ly

theorem Object.row_lt {o : Object} {tall : Bool} {ly : UInt8} (h : o.Covers tall ly) :
    o.row tall ly < objectHeight tall := by
  obtain ⟨h₁, h₂⟩ := h
  simp only [row]
  split <;> omega

theorem Object.rowAddress_lt {o : Object} {tall : Bool} {ly : UInt8} (h : o.Covers tall ly) :
    o.rowAddress tall ly < 0x1fff := by
  have hr := row_lt h
  have ht := o.tile.toNat_lt
  cases tall <;> simp [rowAddress, objectHeight] at hr ⊢ <;> omega

-- An object on the current line, with the two bytes of its row.
structure LineObject where
  object : Object
  low    : UInt8
  high   : UInt8
  deriving Repr, DecidableEq

namespace LineObject

-- Of two objects the one further left lies above, then the one earlier in memory.
def Above (o p : LineObject) : Prop :=
  o.object.x < p.object.x ∨ (o.object.x = p.object.x ∧ o.object.index ≤ p.object.index)

instance (o p : LineObject) : Decidable (o.Above p) := inferInstanceAs (Decidable (_ ∨ _))

-- Adds an object to a list ordered from above to below.
def insert (o : LineObject) : List LineObject → List LineObject
  | []      => [o]
  | p :: ps => if o.Above p then o :: p :: ps else p :: insert o ps

def sort (os : List LineObject) : List LineObject := os.foldr insert []

-- The colour index that the object has in a column, 0 where it is transparent or absent.
def indexAt (o : LineObject) (column : Nat) : UInt8 :=
  let x := o.object.x.toNat
  if x ≤ column + 8 ∧ column + 8 < x + 8 then
    let offset := column + 8 - x
    colorIndex o.low o.high (if o.object.xFlip then offset else 7 - offset)
  else
    0

end LineObject

end Video

open Video

namespace Ppu

variable (p : Ppu)

-- The colour index of a point of the picture that one of the tile maps describes.
def tilePixel (highMap : Bool) (x y : UInt8) : UInt8 :=
  let tile := p.vram.get (mapCell highMap x y)
  let row := tileRow p.unsignedTiles tile y
  let low := p.vram.get ⟨row, by omega⟩
  let high := p.vram.get ⟨row + 1, by omega⟩
  colorIndex low high (7 - x.toNat % 8)

-- The current line has a part of the window on it.
def windowVisible : Bool :=
  p.bgEnabled && p.windowEnabled && p.wy ≤ p.ly && p.wx.toNat < screenWidth + 7

-- The colour index of background or window in a column. The window begins in column `wx - 7`.
def backgroundIndex (column : Nat) : UInt8 :=
  if !p.bgEnabled then 0
  else if p.windowVisible && p.wx.toNat ≤ column + 7 then
    p.tilePixel p.windowMapHigh (.ofNat (column + 7 - p.wx.toNat)) p.wly
  else
    p.tilePixel p.bgMapHigh (.ofNat column + p.scx) (p.ly + p.scy)

-- The row that an object has on the current line, if it has one.
def lineObject? (o : Object) : Option LineObject :=
  if h : o.Covers p.tallObjects p.ly then
    have := Object.rowAddress_lt h
    let row := o.rowAddress p.tallObjects p.ly
    some {
      object := o
      low    := p.vram.get ⟨row, by omega⟩
      high   := p.vram.get ⟨row + 1, by omega⟩ }
  else
    none

-- The most objects that a line can show.
def objectsPerLine : Nat := 10

-- The first objects in memory that cover the current line, from above to below.
def lineObjects : List LineObject :=
  LineObject.sort <|
    ((List.finRange 40).filterMap fun i => p.lineObject? (.ofOam p.oam i)).take objectsPerLine

-- The topmost object that is not transparent in a column, with its colour index there.
def objectPixel (os : List LineObject) (column : Nat) : Option (UInt8 × Object) :=
  os.findSome? fun o =>
    let index := o.indexAt column
    if index = 0 then none else some (index, o.object)

-- The shade of a column, below the given objects' pixels or above them.
def pixel (os : List LineObject) (column : Nat) : UInt8 :=
  let index := p.backgroundIndex column
  let background := if p.bgEnabled then shade p.bgp index else 0
  match objectPixel os column with
  | some (color, o) =>
    if o.underBackground && index != 0 then background
    else shade (if o.secondPalette then p.obp1 else p.obp0) color
  | none => background

def renderLine : Scanline :=
  let os := if p.objectsEnabled then p.lineObjects else []
  .ofFn fun column => p.pixel os column

end Ppu
end DotMatrix
