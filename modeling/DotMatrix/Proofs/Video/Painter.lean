import DotMatrix.Proofs.Interrupt
import DotMatrix.Proofs.Memory
import DotMatrix.Proofs.Video.Beam
import Mathlib.Data.List.Basic

namespace DotMatrix

namespace Video

namespace Object

variable (o : Object)

-- The colour index at a point of the object's picture, which is one tile or, if it is tall, an even
-- tile above the next one.
def texel (vram : Memory 0x2000) (tall : Bool) (x y : Nat) : UInt8 :=
  let tile := (if tall then o.tile.toNat / 2 * 2 else o.tile.toNat) + y / 8
  let row := 16 * tile + 2 * (y % 8)
  colorIndex (vram.read row) (vram.read (row + 1)) (7 - x)

-- The colour index at a point of the object as it lies on the screen.
def color (vram : Memory 0x2000) (tall : Bool) (x y : Nat) : UInt8 :=
  o.texel vram tall (if o.xFlip then 7 - x else x)
    (if o.yFlip then objectHeight tall - 1 - y else y)

-- The object's first line on the screen, which may lie above it, is 16 less than its coordinate.
def Overlaps (tall : Bool) (ly : UInt8) : Prop :=
  (o.y.toNat : Int) - 16 ≤ ly.toNat ∧ (ly.toNat : Int) < o.y.toNat - 16 + objectHeight tall

instance (tall : Bool) (ly : UInt8) : Decidable (o.Overlaps tall ly) :=
  inferInstanceAs (Decidable (_ ∧ _))

-- Of two objects the one further right is painted first, then the one later in memory.
def Under (o p : Object) : Prop := p.x < o.x ∨ (p.x = o.x ∧ p.index ≤ o.index)

instance (o p : Object) : Decidable (o.Under p) := inferInstanceAs (Decidable (_ ∨ _))

end Object

-- The pixels of a line of objects, each with its colour index and its object.
abbrev Canvas := Vector (Option (UInt8 × Object)) 160

namespace Canvas

def blank : Canvas := .replicate 160 none

-- Puts one column of an object on the canvas, unless it is transparent there or off the screen.
def paintColumn (vram : Memory 0x2000) (tall : Bool) (y : Nat) (o : Object) (canvas : Canvas)
    (x : Nat) : Canvas :=
  let color := o.color vram tall x y
  if h : 8 ≤ o.x.toNat + x ∧ o.x.toNat + x - 8 < 160 then
    if color = 0 then canvas else canvas.set (o.x.toNat + x - 8) (some (color, o))
  else
    canvas

def paint (vram : Memory 0x2000) (tall : Bool) (ly : UInt8) (canvas : Canvas) (o : Object) :
    Canvas :=
  (List.range 8).foldl (paintColumn vram tall (ly.toNat + 16 - o.y.toNat) o) canvas

end Canvas
end Video

open Video

namespace Ppu

variable (p : Ppu)

-- The first objects in memory that overlap the line, wherever on it they lie.
def chosenObjects : List Object :=
  (List.finRange 40).map (Object.ofOam p.oam) |>.filter (·.Overlaps p.tallObjects p.ly)
    |>.take objectsPerLine

def paintedObjects : Canvas :=
  (p.chosenObjects.mergeSort fun o q => o.Under q).foldl (Canvas.paint p.vram p.tallObjects p.ly)
    .blank

-- The unit with its objects switched off.
def withoutObjects : Ppu := { p with lcdc := p.lcdc &&& ~~~bitIf true 1 }

end Ppu

namespace Video

namespace Object

-- What the first columns of an object put in a column of the line.
def pixelAt (vram : Memory 0x2000) (tall : Bool) (y width column : Nat) (o : Object) :
    Option (UInt8 × Object) :=
  if o.x.toNat ≤ column + 8 ∧ column + 8 < o.x.toNat + width then
    let color := o.color vram tall (column + 8 - o.x.toNat) y
    if color = 0 then none else some (color, o)
  else
    none

-- What an object puts in a column of the line.
def pixelOn (vram : Memory 0x2000) (tall : Bool) (ly : UInt8) (column : Nat) (o : Object) :
    Option (UInt8 × Object) :=
  o.pixelAt vram tall (ly.toNat + 16 - o.y.toNat) 8 column

end Object

namespace Canvas

variable (vram : Memory 0x2000) (tall : Bool) (ly : UInt8)

theorem paintColumn_get (o : Object) (canvas : Canvas) (y x : Nat) (column : Fin 160) :
    (paintColumn vram tall y o canvas x).get column =
      if o.x.toNat + x = column + 8 ∧ o.color vram tall x y ≠ 0 then
        some (o.color vram tall x y, o)
      else
        canvas.get column := by
  have hc := column.isLt
  have hg (canvas : Canvas) : canvas.get column = canvas[column.val] := rfl
  simp only [paintColumn, hg]
  by_cases hs : o.color vram tall x y = 0
  case pos => simp [hs]
  case neg =>
    by_cases hx : o.x.toNat + x = column + 8
    case pos => simp [hs, hx, hc]
    case neg =>
      simp only [hs, hx, false_and, if_false]
      split
      case isTrue h =>
        have hn : o.x.toNat + x - 8 ≠ column.val := by omega
        simp [Vector.getElem_set_ne, hn]
      case isFalse => rfl

theorem paintColumns_get (o : Object) (canvas : Canvas) (y width : Nat) (column : Fin 160) :
    ((List.range width).foldl (paintColumn vram tall y o) canvas).get column =
      (o.pixelAt vram tall y width column).or (canvas.get column) := by
  induction width with
  | zero =>
    have hn : ¬(o.x.toNat ≤ column + 8 ∧ column + 8 < o.x.toNat + 0) := by omega
    rw [Object.pixelAt, if_neg hn]
    rfl
  | succ width ih =>
    rw [List.range_succ, List.foldl_append, List.foldl_cons, List.foldl_nil, paintColumn_get, ih]
    by_cases hx : o.x.toNat + width = column + 8
    case pos =>
      have hw : column + 8 - o.x.toNat = width := by omega
      have hc : o.x.toNat ≤ column + 8 ∧ column + 8 < o.x.toNat + (width + 1) := by omega
      by_cases hs : o.color vram tall width y = 0 <;> simp [Object.pixelAt, hx, hw, hc, hs]
    case neg =>
      have h : column + 8 < o.x.toNat + (width + 1) ↔ column + 8 < o.x.toNat + width := by omega
      simp only [Object.pixelAt, hx, h, false_and, if_false]

theorem paint_get (o : Object) (canvas : Canvas) (column : Fin 160) :
    (paint vram tall ly canvas o).get column =
      (o.pixelOn vram tall ly column).or (canvas.get column) :=
  paintColumns_get ..

-- Of the objects that put something in a column, the one painted last shows.
theorem foldl_paint_get (os : List Object) (canvas : Canvas) (column : Fin 160) :
    (os.foldl (paint vram tall ly) canvas).get column =
      (os.reverse.findSome? (Object.pixelOn vram tall ly column)).or (canvas.get column) := by
  induction os generalizing canvas with
  | nil => rfl
  | cons o os ih =>
    rw [List.foldl_cons, ih, paint_get, List.reverse_cons, List.findSome?_append,
      List.findSome?_singleton, Option.or_assoc]

end Canvas

namespace Object

variable {o p q : Object} {tall : Bool} {ly : UInt8}

theorem covers_iff_overlaps : o.Covers tall ly ↔ o.Overlaps tall ly := by
  simp only [Covers, Overlaps]
  omega

theorem rowAddress_eq :
    o.rowAddress tall ly =
      16 * ((if tall then o.tile.toNat / 2 * 2 else o.tile.toNat) + o.row tall ly / 8) +
        2 * (o.row tall ly % 8) := by
  simp only [rowAddress]
  omega

-- The row of an object on a line is where the line shows its picture.
theorem color_eq (vram : Memory 0x2000) {x : Nat} (hx : x < 8) :
    o.color vram tall x (ly.toNat + 16 - o.y.toNat) =
      colorIndex (vram.read (o.rowAddress tall ly)) (vram.read (o.rowAddress tall ly + 1))
        (if o.xFlip then x else 7 - x) := by
  have hr : (if o.yFlip then objectHeight tall - 1 - (ly.toNat + 16 - o.y.toNat)
      else ly.toNat + 16 - o.y.toNat) = o.row tall ly := rfl
  have hc : 7 - (if o.xFlip then 7 - x else x) = if o.xFlip then x else 7 - x := by
    split <;> omega
  simp only [color, texel, hr, hc, rowAddress_eq]

theorem Under.trans (h : o.Under p) (h' : p.Under q) : o.Under q := by
  simp only [Under, UInt8.lt_iff_toNat_lt, ← UInt8.toNat_inj, Fin.le_def] at h h' ⊢
  omega

theorem Under.total (o p : Object) : o.Under p ∨ p.Under o := by
  simp only [Under, UInt8.lt_iff_toNat_lt, ← UInt8.toNat_inj, Fin.le_def]
  omega

theorem Under.index_eq (h : o.Under p) (h' : p.Under o) : o.index = p.index := by
  simp only [Under, UInt8.lt_iff_toNat_lt, ← UInt8.toNat_inj, Fin.le_def, Fin.ext_iff] at h h' ⊢
  omega

end Object

namespace LineObject

theorem insert_perm (o : LineObject) (os : List LineObject) : (insert o os).Perm (o :: os) := by
  induction os with
  | nil => exact .refl _
  | cons p ps ih =>
    rw [insert]
    split
    case isTrue => exact .refl _
    case isFalse => exact (ih.cons p).trans (.swap o p ps)

theorem sort_perm (os : List LineObject) : (sort os).Perm os := by
  induction os with
  | nil => exact .refl _
  | cons o os ih => exact (insert_perm o (sort os)).trans (ih.cons o)

variable {o p q : LineObject} {os : List LineObject}

-- Looked at from above, the order is the painter's from the other end.
theorem Above.trans (h : o.Above p) (h' : p.Above q) : o.Above q :=
  Object.Under.trans h' h

theorem above_of_not_above (h : ¬o.Above p) : p.Above o :=
  (Object.Under.total o.object p.object).resolve_right h

theorem insert_pairwise (o : LineObject) (h : os.Pairwise Above) :
    (insert o os).Pairwise Above := by
  induction os with
  | nil => exact List.pairwise_singleton ..
  | cons p ps ih =>
    have ⟨hp, hps⟩ := List.pairwise_cons.mp h
    rw [insert]
    split
    case isTrue ha =>
      refine List.pairwise_cons.mpr ⟨fun q hq => ?_, h⟩
      cases List.mem_cons.mp hq
      case inl hq => exact hq ▸ ha
      case inr hq => exact ha.trans (hp q hq)
    case isFalse ha =>
      refine List.pairwise_cons.mpr ⟨fun q hq => ?_, ih hps⟩
      cases List.mem_cons.mp ((insert_perm o ps).mem_iff.mp hq)
      case inl hq => exact hq ▸ above_of_not_above ha
      case inr hq => exact hp q hq

theorem sort_pairwise (os : List LineObject) : (sort os).Pairwise Above := by
  induction os with
  | nil => exact .nil
  | cons o os ih => exact insert_pairwise o ih

end LineObject

end Video

namespace Ppu

variable {p : Ppu} {l : LineObject}

theorem lineObject?_object (o : Object) :
    (p.lineObject? o).map (·.object) = Option.guard (·.Overlaps p.tallObjects p.ly) o := by
  simp only [lineObject?, Option.guard, ← Object.covers_iff_overlaps, decide_eq_true_eq]
  split <;> rfl

theorem pixelOn_of_lineObject? {o : Object} (h : p.lineObject? o = some l) (column : Nat) :
    (if l.indexAt column = 0 then none else some (l.indexAt column, l.object)) =
      l.object.pixelOn p.vram p.tallObjects p.ly column := by
  simp only [lineObject?] at h
  split at h
  case isFalse => contradiction
  case isTrue hc =>
    cases h
    simp only [LineObject.indexAt, Object.pixelOn, Object.pixelAt, ← Memory.read_eq_get]
    split
    case isFalse => rfl
    case isTrue h => rw [Object.color_eq _ (by omega)]

variable (p)

-- The chosen objects in the order of memory, with the rows that they have on the line.
def chosenLineObjects : List LineObject :=
  ((List.finRange 40).filterMap fun i => p.lineObject? (.ofOam p.oam i)).take objectsPerLine

theorem chosenLineObjects_object : p.chosenLineObjects.map (·.object) = p.chosenObjects := by
  rw [chosenLineObjects, chosenObjects, List.map_take, List.map_filterMap,
    ← List.filterMap_eq_filter, List.filterMap_map]
  exact congrArg (List.take _ <| List.filterMap · _) (funext fun i => lineObject?_object _)

theorem lineObject?_of_mem (h : l ∈ p.chosenLineObjects) :
    ∃ i : Fin 40, p.lineObject? (.ofOam p.oam i) = some l := by
  have ⟨i, _, hi⟩ := List.mem_filterMap.mp (List.mem_of_mem_take h)
  exact ⟨i, hi⟩

theorem chosenObjects_eq_ofOam {o : Object} (h : o ∈ p.chosenObjects) :
    o = .ofOam p.oam o.index := by
  have ho := (List.mem_filter.mp (List.mem_of_mem_take h)).left
  have ⟨i, _, hi⟩ := List.mem_map.mp ho
  exact hi ▸ rfl

-- The painter's order is the order in which the unit looks, from the other end. Both are sorted,
-- and no two objects share their place in memory.
theorem chosenObjects_mergeSort :
    (p.chosenObjects.mergeSort fun o q => o.Under q) =
      (p.lineObjects.map (·.object)).reverse := by
  have hm : (p.chosenObjects.mergeSort fun o q => o.Under q).Perm p.chosenObjects :=
    List.mergeSort_perm ..
  have hl : (p.lineObjects.map (·.object)).reverse.Perm p.chosenObjects :=
    (List.reverse_perm _).trans <|
      ((LineObject.sort_perm p.chosenLineObjects).map _).trans (.of_eq p.chosenLineObjects_object)
  have hu : (p.chosenObjects.mergeSort fun o q => o.Under q).Pairwise Object.Under := by
    refine (List.pairwise_mergeSort ?_ ?_ p.chosenObjects).imp of_decide_eq_true
    · intro _ _ _ h h'
      exact decide_eq_true ((of_decide_eq_true h).trans (of_decide_eq_true h'))
    · intro o q
      simpa using Object.Under.total o q
  have hv : (p.lineObjects.map (·.object)).reverse.Pairwise Object.Under := by
    rw [List.pairwise_reverse, List.pairwise_map]
    exact LineObject.sort_pairwise p.chosenLineObjects
  refine List.Perm.eq_of_pairwise (fun o q ho hq h h' => ?_) hu hv (hm.trans hl.symm)
  rw [p.chosenObjects_eq_ofOam (hm.mem_iff.mp ho), p.chosenObjects_eq_ofOam (hl.mem_iff.mp hq),
    h.index_eq h']

theorem objectPixel_eq (column : Fin 160) :
    objectPixel p.lineObjects column = p.paintedObjects.get column := by
  have hb : Canvas.blank.get column = none := Vector.getElem_replicate ..
  rw [paintedObjects, Canvas.foldl_paint_get, hb, Option.or_none, chosenObjects_mergeSort,
    List.reverse_reverse, List.findSome?_map, objectPixel, ← List.head?_filterMap,
    ← List.head?_filterMap]
  refine congrArg List.head? (List.filterMap_congr fun l hl => ?_)
  have ⟨i, hi⟩ := p.lineObject?_of_mem ((LineObject.sort_perm _).mem_iff.mp hl)
  exact pixelOn_of_lineObject? hi column

-- Switching the objects off changes nothing about the background.
theorem testBit_withoutObjects {i : Nat} (hi : i < 8) (h : i ≠ 1) :
    testBit p.withoutObjects.lcdc i = testBit p.lcdc i := by
  have hb : ∀ i < 8, i ≠ 1 → testBit (~~~bitIf true 1) i = true := by decide
  rw [withoutObjects, Interrupts.testBit_and, hb i hi h, Bool.and_true]

theorem objectsEnabled_withoutObjects : p.withoutObjects.objectsEnabled = false := by
  rw [objectsEnabled, withoutObjects, Interrupts.testBit_and]
  exact Bool.and_false _

theorem backgroundIndex_withoutObjects (column : Nat) :
    p.withoutObjects.backgroundIndex column = p.backgroundIndex column := by
  simp (disch := decide) only [backgroundIndex, windowVisible, tilePixel, bgEnabled, windowEnabled,
    unsignedTiles, windowMapHigh, bgMapHigh, testBit_withoutObjects]
  rfl

theorem renderLine_get (column : Fin 160) :
    p.renderLine.get column = p.pixel (if p.objectsEnabled then p.lineObjects else []) column :=
  Vector.getElem_ofFn ..

theorem renderLine_withoutObjects (column : Fin 160) :
    p.withoutObjects.renderLine.get column =
      if p.bgEnabled then shade p.bgp (p.backgroundIndex column) else 0 := by
  have hb : p.withoutObjects.bgEnabled = p.bgEnabled :=
    p.testBit_withoutObjects (by decide) (by decide)
  rw [renderLine_get, objectsEnabled_withoutObjects, if_neg Bool.false_ne_true, pixel,
    backgroundIndex_withoutObjects, hb]
  rfl

-- The pixel that is found from above is the one that the painter leaves. It shows in the shade of
-- its palette, unless there is none or it lies below a background pixel that is not transparent.
theorem objects_painted (h : p.objectsEnabled) (column : Fin 160) :
    objectPixel p.lineObjects column = p.paintedObjects.get column ∧
    p.renderLine.get column =
      match p.paintedObjects.get column with
      | none => p.withoutObjects.renderLine.get column
      | some (color, o) =>
        if o.underBackground ∧ p.backgroundIndex column ≠ 0 then
          p.withoutObjects.renderLine.get column
        else
          shade (if o.secondPalette then p.obp1 else p.obp0) color := by
  refine ⟨p.objectPixel_eq column, ?_⟩
  rw [renderLine_get, if_pos h, renderLine_withoutObjects, pixel, objectPixel_eq]
  cases p.paintedObjects.get column
  case none => rfl
  case some pixel => simp

-- Forty objects in one place, of which the first ten are painted: the first one shows.
theorem objects_painted_stack :
    let p : Ppu := { vram := .replicate _ 0xff, oam := .replicate _ 0x10, lcdc := 0x93 }
    p.objectsEnabled ∧
    p.paintedObjects.get 8 = some (3, .ofOam p.oam 0) ∧
    p.renderLine.get 8 = shade p.obp1 3 := by
  intro p
  have ho : p.objectsEnabled := by decide
  have ⟨hp, hl⟩ := p.objects_painted ho 8
  have hs : objectPixel p.lineObjects 8 = some (3, .ofOam p.oam 0) := by decide +kernel
  have hc : p.paintedObjects.get 8 = some (3, .ofOam p.oam 0) := hp.symm.trans hs
  rw [hc] at hl
  exact ⟨ho, hc, hl.trans (by decide +kernel)⟩

end Ppu
end DotMatrix
