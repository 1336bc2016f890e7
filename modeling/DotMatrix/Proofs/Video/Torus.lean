import DotMatrix.Proofs.Interrupt
import DotMatrix.Proofs.Video.WindowLines

namespace DotMatrix.Ppu

open Video

variable (p : Ppu) {q : Ppu} {column : Nat}

-- The window covers the column on the current line.
def WindowCovers (column : Nat) : Prop := p.ShowsWindow ∧ p.wx.toNat ≤ column + 7

instance (column : Nat) : Decidable (p.WindowCovers column) := inferInstanceAs (Decidable (_ ∧ _))

-- The cell of the tile maps that shows in a column.
def shownCell (column : Nat) : Fin 0x2000 :=
  if p.WindowCovers column then
    mapCell p.windowMapHigh (.ofNat (column + 7 - p.wx.toNat)) p.wly
  else
    mapCell p.bgMapHigh (.ofNat column + p.scx) (p.ly + p.scy)

-- The tile that shows in a column.
def shownTile (column : Nat) : UInt8 := p.vram.get (p.shownCell column)

-- The unit with one bit of its control register set or cleared.
def withControl (i : Nat) (b : Bool) : Ppu :=
  { p with lcdc := p.lcdc &&& ~~~bitIf true (.ofNat i) ||| bitIf b (.ofNat i) }

-- The unit without its window.
def withoutWindow : Ppu := p.withControl 5 false

-- The unit without its window, and with a background that looks as the window does.
def windowAsBackground : Ppu :=
  { p.withoutWindow.withControl 3 p.windowMapHigh with scx := 7 - p.wx, scy := p.wly - p.ly }

theorem testBit_withControl {i j : Nat} (hi : i < 8) (hj : j < 8) (b : Bool) :
    testBit (p.withControl i b).lcdc j = if j = i then b else testBit p.lcdc j := by
  have hc : ∀ i < 8, ∀ j < 8, testBit (~~~bitIf true (.ofNat i)) j = !decide (j = i) := by decide
  have hs : ∀ i < 8, ∀ j < 8, testBit (bitIf b (.ofNat i)) j = (b && decide (j = i)) := by
    cases b <;> decide
  rw [withControl, Interrupts.testBit_or, Interrupts.testBit_and, hc i hi j hj, hs i hi j hj]
  by_cases h : j = i <;> simp [h]

theorem backgroundIndex_of_covers (h : p.WindowCovers column) : p.backgroundIndex column =
    p.tilePixel p.windowMapHigh (.ofNat (column + 7 - p.wx.toNat)) p.wly :=
  backgroundIndex_of_showsWindow h.1 h.2

theorem backgroundIndex_of_not_covers (h : ¬p.WindowCovers column) : p.backgroundIndex column =
    if p.bgEnabled then p.tilePixel p.bgMapHigh (.ofNat column + p.scx) (p.ly + p.scy) else 0 := by
  have hw : (p.windowVisible && decide (p.wx.toNat ≤ column + 7)) = false := by
    simpa [WindowCovers, ← windowVisible_iff] using h
  cases hb : p.bgEnabled <;> simp [backgroundIndex, hb, hw]

variable {p} in
theorem tilePixel_congr (hv : q.vram = p.vram) (hu : q.unsignedTiles = p.unsignedTiles)
    (highMap : Bool) : q.tilePixel highMap = p.tilePixel highMap := by
  funext x y
  simp only [tilePixel, hv, hu]

theorem ofNat_add_congr {x y : Nat} {a b : UInt8}
    (h : (x + a.toNat) % 0x100 = (y + b.toNat) % 0x100) :
    UInt8.ofNat x + a = UInt8.ofNat y + b := by
  apply UInt8.toNat_inj.mp
  rw [UInt8.toNat_add, UInt8.toNat_add, UInt8.toNat_ofNat', UInt8.toNat_ofNat', Nat.mod_add_mod,
    Nat.mod_add_mod]
  exact h

-- Two states that look at one point of the background show the same there.
theorem backgroundIndex_of_scrolled {scx scy ly : UInt8} {x y : Nat} (hp : ¬p.WindowCovers x)
    (hq : ¬{ p with scx, scy, ly }.WindowCovers y)
    (hx : (x + p.scx.toNat) % 0x100 = (y + scx.toNat) % 0x100)
    (hy : (p.ly.toNat + p.scy.toNat) % 0x100 = (ly.toNat + scy.toNat) % 0x100) :
    { p with scx, scy, ly }.backgroundIndex y = p.backgroundIndex x := by
  have hl : p.ly + p.scy = ly + scy := by
    apply UInt8.toNat_inj.mp
    rw [UInt8.toNat_add, UInt8.toNat_add]
    exact hy
  rw [backgroundIndex_of_not_covers _ hp, backgroundIndex_of_not_covers _ hq, hl,
    ofNat_add_congr hx]
  rfl

theorem not_covers_of_disabled (h : p.windowEnabled = false) : ¬p.WindowCovers column :=
  fun hc => Bool.false_ne_true (h.symm.trans hc.1.2.1)

theorem testBit_windowAsBackground {i : Nat} (hi : i < 8) : testBit p.windowAsBackground.lcdc i =
    if i = 3 then p.windowMapHigh else if i = 5 then false else testBit p.lcdc i :=
  (p.withoutWindow.testBit_withControl (by decide) hi _).trans
    (congrArg (ite (i = 3) p.windowMapHigh) (p.testBit_withControl (by decide) hi false))

-- A column of the window is one of the background that looks as the window does.
theorem backgroundIndex_windowAsBackground (h : p.WindowCovers column) :
    p.windowAsBackground.backgroundIndex column = p.backgroundIndex column := by
  have hk {i : Nat} (hi : i < 8) := p.testBit_windowAsBackground hi
  have hb : p.windowAsBackground.bgEnabled := (hk (by decide)).trans h.1.1
  have hm : p.windowAsBackground.bgMapHigh = p.windowMapHigh := hk (by decide)
  have hu : p.windowAsBackground.unsignedTiles = p.unsignedTiles := hk (by decide)
  have hw : p.windowAsBackground.windowEnabled = false := hk (by decide)
  have hx : UInt8.ofNat column + (7 - p.wx) = .ofNat (column + 7 - p.wx.toNat) := by
    have hc := h.2
    have hl := p.wx.toNat_lt
    apply UInt8.toNat_inj.mp
    rw [UInt8.toNat_add, UInt8.toNat_sub, UInt8.toNat_ofNat', UInt8.toNat_ofNat']
    simp only [UInt8.toNat_ofNat]
    omega
  have hy : p.ly + (p.wly - p.ly) = p.wly := by grind
  have ht := tilePixel_congr (p := p) (q := p.windowAsBackground) rfl hu
  rw [backgroundIndex_of_not_covers _ (not_covers_of_disabled _ hw), if_pos hb, hm, ht,
    backgroundIndex_of_covers _ h]
  exact congrArg₂ (p.tilePixel p.windowMapHigh) hx hy

-- Where the window does not reach, it makes no difference.
theorem backgroundIndex_withoutWindow (h : ¬p.WindowCovers column) :
    p.withoutWindow.backgroundIndex column = p.backgroundIndex column := by
  have hk {i : Nat} (hi : i < 8) := p.testBit_withControl (i := 5) (by decide) hi false
  have hb : p.withoutWindow.bgEnabled = p.bgEnabled := hk (by decide)
  have hm : p.withoutWindow.bgMapHigh = p.bgMapHigh := hk (by decide)
  have hu : p.withoutWindow.unsignedTiles = p.unsignedTiles := hk (by decide)
  have hw : p.withoutWindow.windowEnabled = false := hk (by decide)
  have ht := tilePixel_congr (p := p) (q := p.withoutWindow) rfl hu
  rw [backgroundIndex_of_not_covers _ (not_covers_of_disabled _ hw), hb, hm, ht,
    backgroundIndex_of_not_covers _ h]
  rfl

theorem tileRow_of_le {tile : UInt8} (h : 0x80 ≤ tile) (unsigned : Bool) (y : UInt8) :
    tileRow unsigned tile y = tileRow true tile y := by
  have hn : ¬tile.toNat < 0x80 := Nat.not_lt.mpr (UInt8.le_iff_toNat_le.mp h)
  simp [tileRow, hn]

-- How tiles are numbered makes no difference to those that lie in the middle.
theorem tilePixel_withControl {highMap : Bool} {x y : UInt8}
    (h : 0x80 ≤ p.vram.get (mapCell highMap x y)) (b : Bool) :
    (p.withControl 4 b).tilePixel highMap x y = p.tilePixel highMap x y := by
  have hv : (p.withControl 4 b).vram = p.vram := rfl
  simp only [tilePixel, hv, tileRow_of_le h (p.withControl 4 b).unsignedTiles,
    tileRow_of_le h p.unsignedTiles]

theorem backgroundIndex_withControl (h : 0x80 ≤ p.shownTile column) (b : Bool) :
    (p.withControl 4 b).backgroundIndex column = p.backgroundIndex column := by
  have hk {i : Nat} (hi : i < 8) := p.testBit_withControl (i := 4) (by decide) hi b
  have h0 : (p.withControl 4 b).bgEnabled = p.bgEnabled := hk (by decide)
  have h3 : (p.withControl 4 b).bgMapHigh = p.bgMapHigh := hk (by decide)
  have h5 : (p.withControl 4 b).windowEnabled = p.windowEnabled := hk (by decide)
  have h6 : (p.withControl 4 b).windowMapHigh = p.windowMapHigh := hk (by decide)
  have hw : (p.withControl 4 b).WindowCovers column ↔ p.WindowCovers column :=
    and_congr_left' <| and_congr (Bool.eq_iff_iff.mp h0) (and_congr_left' (Bool.eq_iff_iff.mp h5))
  by_cases hc : p.WindowCovers column
  case pos =>
    rw [shownTile, shownCell, if_pos hc] at h
    rw [backgroundIndex_of_covers _ (hw.mpr hc), h6, backgroundIndex_of_covers _ hc]
    exact p.tilePixel_withControl h b
  case neg =>
    rw [shownTile, shownCell, if_neg hc] at h
    rw [backgroundIndex_of_not_covers _ (mt hw.mp hc), h0, h3, backgroundIndex_of_not_covers _ hc]
    exact congrArg (fun index => if p.bgEnabled then index else 0) (p.tilePixel_withControl h b)

-- Wherever two states look at one point of the background they show the same, and the window is a
-- background that begins in another place, up to which the other one is as if there were no window.
-- Tiles in the middle of tile memory are the same however the others are numbered.
theorem background_is_torus (p : Ppu) :
    (∀ {scx scy ly : UInt8} {x y : Nat}, ¬p.WindowCovers x →
      ¬{ p with scx, scy, ly }.WindowCovers y →
      (x + p.scx.toNat) % 0x100 = (y + scx.toNat) % 0x100 →
      (p.ly.toNat + p.scy.toNat) % 0x100 = (ly.toNat + scy.toNat) % 0x100 →
      { p with scx, scy, ly }.backgroundIndex y = p.backgroundIndex x) ∧
    (p.ShowsWindow → ∀ column, p.backgroundIndex column =
      if p.wx.toNat ≤ column + 7 then p.windowAsBackground.backgroundIndex column
      else p.withoutWindow.backgroundIndex column) ∧
    ∀ column, 0x80 ≤ p.shownTile column →
      ∀ b, (p.withControl 4 b).backgroundIndex column = p.backgroundIndex column := by
  refine ⟨p.backgroundIndex_of_scrolled, fun h column => ?_,
    fun _ => p.backgroundIndex_withControl⟩
  split
  case isTrue hc  => exact (p.backgroundIndex_windowAsBackground ⟨h, hc⟩).symm
  case isFalse hc => exact (p.backgroundIndex_withoutWindow fun hw => hc hw.2).symm

-- A line with the window on its right half, scrolled around the edge of its background.
theorem background_is_torus_edge :
    let p : Ppu := { vram := .replicate _ 0xff, lcdc := 0xb1, scx := 0xfa, wx := 0x57 }
    let q : Ppu := { p with scx := 4 }
    (¬p.WindowCovers 10 ∧ ¬q.WindowCovers 0 ∧ p.ShowsWindow ∧ 0x80 ≤ p.shownTile 80) ∧
    q.backgroundIndex 0 = p.backgroundIndex 10 ∧
    p.backgroundIndex 79 = p.withoutWindow.backgroundIndex 79 ∧
    p.backgroundIndex 80 = p.windowAsBackground.backgroundIndex 80 ∧
    (p.withControl 4 false).backgroundIndex 80 = p.backgroundIndex 80 := by
  intro p q
  have hp : ¬p.WindowCovers 10 := by decide
  have hq : ¬q.WindowCovers 0 := by decide
  have hs : p.ShowsWindow := by decide
  have ht : 0x80 ≤ p.shownTile 80 := by decide +kernel
  obtain ⟨hscroll, hwindow, htiles⟩ := p.background_is_torus
  exact ⟨⟨hp, hq, hs, ht⟩, hscroll hp hq (by decide) (by decide), hwindow hs 79, hwindow hs 80,
    htiles 80 ht false⟩

end DotMatrix.Ppu
