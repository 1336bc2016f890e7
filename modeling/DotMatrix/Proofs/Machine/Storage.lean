import Mathlib.Data.List.Induction
import DotMatrix.Proofs.Machine.Dma
import DotMatrix.Proofs.Machine.Idle

namespace DotMatrix

namespace Region

-- The addresses of video memory, work RAM and its second view, object memory and high RAM.
def Stores (a : UInt16) : Prop :=
  0x8000 ≤ a.toNat ∧ a.toNat ≤ 0x9fff ∨ 0xc000 ≤ a.toNat ∧ a.toNat ≤ 0xfdff ∨
    0xfe00 ≤ a.toNat ∧ a.toNat ≤ 0xfe9f ∨ 0xff80 ≤ a.toNat ∧ a.toNat ≤ 0xfffe

instance (a : UInt16) : Decidable (Stores a) := inferInstanceAs (Decidable (_ ∨ _))

-- Two addresses of one byte: the views of work RAM lie 2000 apart.
def Aliases (a c : UInt16) : Prop :=
  c = a ∨ 0xc000 ≤ a.toNat ∧ a.toNat ≤ 0xfdff ∧ 0xc000 ≤ c.toNat ∧ c.toNat ≤ 0xfdff ∧
    a.toNat % 0x2000 = c.toNat % 0x2000

instance (a c : UInt16) : Decidable (Aliases a c) := inferInstanceAs (Decidable (_ ∨ _))

end Region

namespace Board

open Region (Stores Aliases)

variable (b : Board) {a : UInt16} (v : UInt8) (c : UInt16)

theorem read_write_vram (ha : Region.ofAddress a = .vram) :
    (b.write a v).read c = if c = a then v else b.read c := by
  have hw : b.write a v = { b with ppu := b.ppu.writeVram a v } := by rw [write, ha]
  have hs : 0x8000 ≤ a.toNat ∧ a.toNat < 0xa000 := Region.spans_of ha
  rw [hw]
  split
  case isTrue h =>
    rw [read, h, ha]
    exact b.ppu.vram.read_write_self a.toNat v (by decide)
  case isFalse hn =>
    simp only [read]
    cases hc : Region.ofAddress c
    case vram =>
      have hs' : 0x8000 ≤ c.toNat ∧ c.toNat < 0xa000 := Region.spans_of hc
      exact b.ppu.vram.read_write_of_ne v fun hm => hn (UInt16.toNat_inj.mp (by omega))
    case video r => cases r <;> rfl
    all_goals rfl

-- The views of work RAM show each other's bytes.
theorem read_write_workRam (ha : Region.ofAddress a = .workRam) : (b.write a v).read c =
    if Region.ofAddress c = .workRam ∧ a.toNat % 0x2000 = c.toNat % 0x2000 then v
    else b.read c := by
  have hw : b.write a v = { b with wram := b.wram.write a.toNat v } := by rw [write, ha]
  rw [hw]
  split
  case isTrue h =>
    rw [read, h.left]
    exact (Memory.read_congr _ h.right).symm.trans (b.wram.read_write_self a.toNat v (by decide))
  case isFalse hn =>
    simp only [read]
    cases hc : Region.ofAddress c
    case workRam => exact b.wram.read_write_of_ne v fun hm => hn ⟨hc, hm⟩
    all_goals rfl

theorem read_write_oam {i} (ha : Region.ofAddress a = .oam i) :
    (b.write a v).read c = if c = a then v else b.read c := by
  have hw : b.write a v = { b with ppu := b.ppu.writeOam i v } := by rw [write, ha]
  have hs : a.toNat = 0xfe00 + i := Region.spans_of ha
  rw [hw]
  split
  case isTrue h =>
    rw [read, h, ha]
    exact (b.ppu.oam.get_set i i v).trans (if_pos rfl)
  case isFalse hn =>
    simp only [read]
    cases hc : Region.ofAddress c
    case oam j =>
      have hs' : c.toNat = 0xfe00 + j := Region.spans_of hc
      exact (b.ppu.oam.get_set i j v).trans (if_neg fun h =>
        hn (UInt16.toNat_inj.mp (by rw [hs, hs', h])))
    case video r => cases r <;> rfl
    all_goals rfl

theorem read_write_highRam {i} (ha : Region.ofAddress a = .highRam i) :
    (b.write a v).read c = if c = a then v else b.read c := by
  have hw : b.write a v = { b with hram := b.hram.set i v i.isLt } := by rw [write, ha]
  have hs : a.toNat = 0xff80 + i := Region.spans_of ha
  rw [hw]
  split
  case isTrue h =>
    rw [read, h, ha]
    exact (b.hram.get_set i i v).trans (if_pos rfl)
  case isFalse hn =>
    simp only [read]
    cases hc : Region.ofAddress c
    case highRam j =>
      have hs' : c.toNat = 0xff80 + j := Region.spans_of hc
      exact (b.hram.get_set i j v).trans (if_neg fun h =>
        hn (UInt16.toNat_inj.mp (by rw [hs, hs', h])))
    all_goals rfl

-- A byte is seen at the addresses of its place, and nowhere else.
theorem read_write_of_stores (ha : Stores a) :
    (b.write a v).read c = if Aliases a c then v else b.read c := by
  have hu : a.toNat ≤ 0xbfff ∨ 0xfe00 ≤ a.toNat → (Aliases a c ↔ c = a) := by
    intro hu
    exact ⟨fun h => h.resolve_right (by omega), .inl⟩
  obtain ⟨hl, hh⟩ | ⟨hl, hh⟩ | ⟨hl, hh⟩ | ⟨hl, hh⟩ := ha
  · simp only [hu (by omega)]
    exact b.read_write_vram v c (Region.ofAddress_vram hl (by omega))
  · have hw : Aliases a c ↔
        Region.ofAddress c = .workRam ∧ a.toNat % 0x2000 = c.toNat % 0x2000 := by
      constructor
      case mp =>
        rintro (rfl | ⟨-, -, hl, hh, hm⟩)
        · exact ⟨Region.ofAddress_workRam hl (by omega), rfl⟩
        · exact ⟨Region.ofAddress_workRam hl (by omega), hm⟩
      case mpr =>
        intro ⟨hc, hm⟩
        have hs : 0xc000 ≤ c.toNat ∧ c.toNat < 0xfe00 := Region.spans_of hc
        exact .inr ⟨hl, hh, hs.left, by omega, hm⟩
    simp only [hw]
    exact b.read_write_workRam v c (Region.ofAddress_workRam hl (by omega))
  · simp only [hu (by omega)]
    exact b.read_write_oam v c (Region.ofAddress_oam hl (by omega))
  · simp only [hu (by omega)]
    exact b.read_write_highRam v c (Region.ofAddress_highRam hl (by omega))

def writes (b : Board) (ws : List (UInt16 × UInt8)) : Board :=
  ws.foldl (fun b w => b.write w.fst w.snd) b

-- The value that was last written to the place of an address.
def lastAt (c : UInt16) (ws : List (UInt16 × UInt8)) : Option UInt8 :=
  (ws.filter fun w => Aliases w.fst c).getLast?.map Prod.snd

theorem lastAt_concat (c : UInt16) (ws : List (UInt16 × UInt8)) (w : UInt16 × UInt8) :
    lastAt c (ws ++ [w]) = if Aliases w.fst c then some w.snd else lastAt c ws := by
  simp only [lastAt, List.filter_append]
  split
  case isTrue h  => simp [h]
  case isFalse h => simp [h]

theorem read_writes_of_stores {ws : List (UInt16 × UInt8)} (hw : ∀ w ∈ ws, Stores w.fst) :
    (b.writes ws).read c = (lastAt c ws).getD (b.read c) := by
  induction ws using List.reverseRecOn with
  | nil => rfl
  | append_singleton ws w ih =>
    have hs : Stores w.fst := hw w (by simp)
    have ih := ih fun w hm => hw w (by simp [hm])
    rw [writes, List.foldl_concat, ← writes, read_write_of_stores _ _ _ hs, lastAt_concat, ih]
    split <;> rfl

-- Of the writes to the memories each is seen at the addresses of its place and nowhere else, so
-- after any number of them every address shows what last came to its place, or what it showed
-- before.
theorem read_of_writes (b : Board) {ws : List (UInt16 × UInt8)} (hw : ∀ w ∈ ws, Stores w.fst) :
    (∀ a v c, Stores a → (b.write a v).read c = if Aliases a c then v else b.read c) ∧
    ∀ c, (b.writes ws).read c = (lastAt c ws).getD (b.read c) :=
  ⟨fun _ v c ha => b.read_write_of_stores v c ha, fun c => b.read_writes_of_stores c hw⟩

theorem read_of_writes_lullaby :
    let b := (Machine.powerOn .lullaby {}).core.bus
    let ws : List (UInt16 × UInt8) := [(0xc123, 5), (0xe123, 6), (0xfe9f, 7)]
    (∀ w ∈ ws, Stores w.fst) ∧ (b.writes ws).read 0xc123 = 6 ∧ (b.writes ws).read 0xfe9f = 7 ∧
      (b.writes ws).read 0xfea0 = b.read 0xfea0 := by
  intro b ws
  have hw : ∀ w ∈ ws, Stores w.fst := by
    have hs : Stores 0xc123 ∧ Stores 0xe123 ∧ Stores 0xfe9f := by decide
    simpa [ws] using hs
  obtain ⟨-, h⟩ := b.read_of_writes hw
  have hn : lastAt 0xfea0 ws = none := by decide
  exact ⟨hw, h 0xc123, h 0xfe9f, (h 0xfea0).trans (by rw [hn, Option.getD_none])⟩

end Board
end DotMatrix
