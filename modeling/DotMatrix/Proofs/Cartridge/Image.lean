import DotMatrix.Cartridge.Basic

namespace DotMatrix.Cartridge

variable {image : Array UInt8} {c : Cartridge}

theorem romBytes_eq (h : Header) : h.romBytes = romBankSize * h.romBanks := by
  unfold Header.romBytes
  exact Nat.mul_comm _ _

theorem romBytes_pos (h : Header) : 0 < h.romBytes := by
  have hb : 0 < h.romBanks := (by decide : ∀ code : Fin 7, 0 < 2 <<< code.val) h.romCode
  exact romBytes_eq h ▸ Nat.mul_pos (by decide) hb

theorem ofImage_eq (h : ofImage image = .ok c) : ∃ header fits,
    c = { header, rom := padded header image fits, ram := Memory.zeros _ } := by
  simp only [ofImage, bind, Except.bind] at h
  split at h
  case h_1 => cases h
  case h_2 header _ =>
    split at h
    case isTrue fits => exact ⟨header, fits, (Except.ok.inj h).symm⟩
    case isFalse     => cases h

-- The bytes of an image that tell of its cartridge.
def kindByte (image : Array UInt8) : UInt8 := image.getD 0x147 0

def romByte (image : Array UInt8) : UInt8 := image.getD 0x148 0

def ramByte (image : Array UInt8) : UInt8 := image.getD 0x149 0

-- An image holds a header: it is long enough, three of its bytes have a meaning, and it is no longer
-- than the ROM it declares.
structure Holds (image : Array UInt8) (header : Header) : Prop where
  whole   : Header.endOffset ≤ image.size
  kind    : Kind.ofByte? (kindByte image) = some header.kind
  romCode : Header.romCode? (romByte image) = some header.romCode
  ramSize : RamSize.ofByte? (ramByte image) = some header.ramSize
  fits    : image.size ≤ header.romBytes

theorem Holds.parse {header : Header} (h : Holds image header) :
    Header.parse image = .ok header := by
  have hb : 0x150 ≤ image.size := h.whole
  have hk : image[0x147] = kindByte image := Array.getElem_eq_getD 0
  have hc : image[0x148] = romByte image := Array.getElem_eq_getD 0
  have hr : image[0x149] = ramByte image := Array.getElem_eq_getD 0
  simp only [Header.parse, dif_neg (Nat.not_lt.mpr h.whole), hk, hc, hr, h.kind, h.romCode,
    h.ramSize]
  exact if_neg (Nat.not_lt.mpr h.fits)

-- Such an image is accepted.
theorem Holds.ofImage {header : Header} (h : Holds image header) :
    ofImage image = .ok { header, rom := padded header image h.fits, ram := Memory.zeros _ } := by
  simp only [Cartridge.ofImage, h.parse, bind, Except.bind, dif_pos h.fits]
  rfl

theorem ofImage_of_codes (header : Header) (hl : Header.endOffset ≤ image.size)
    (hk : Kind.ofByte? (image.getD 0x147 0) = some header.kind)
    (hc : Header.romCode? (image.getD 0x148 0) = some header.romCode)
    (hr : RamSize.ofByte? (image.getD 0x149 0) = some header.ramSize)
    (fits : image.size ≤ header.romBytes) :
    ∃ c, ofImage image = .ok c ∧ c.header = header :=
  ⟨_, Holds.ofImage ⟨hl, hk, hc, hr, fits⟩, rfl⟩

-- Beyond an image there are zeros.
theorem getD_append_zeros (n i : Nat) :
    (image ++ Array.replicate n 0).getD i 0 = image.getD i 0 := by
  simp only [Array.getD_eq_getD_getElem?, Array.getElem?_append]
  split
  · rfl
  · rw [Array.getElem?_replicate, Array.getElem?_eq_none (by omega)]
    split <;> rfl

theorem padded_getD (h : Header) (fits : image.size ≤ h.romBytes) (i : Nat) :
    (padded h image fits).toArray.getD i 0 = image.getD i 0 :=
  getD_append_zeros ..

-- The shortest image of a cartridge of 64 banks: nothing but its header.
def headerOnly : Array UInt8 :=
  .ofFn fun i : Fin 0x150 => if i.val = 0x147 then 1 else if i.val = 0x148 then 5 else 0

theorem ofImage_headerOnly : ∃ c, ofImage headerOnly = .ok c ∧
    c.header = { kind := .mbc1, romCode := 5, ramSize := .absent } :=
  ofImage_of_codes { kind := .mbc1, romCode := 5, ramSize := .absent }
    (Nat.le_of_eq Array.size_ofFn.symm) (by simp [headerOnly]; rfl) (by simp [headerOnly]; rfl)
    (by simp [headerOnly]; rfl) (by rw [headerOnly, Array.size_ofFn, romBytes_eq]; decide)

end DotMatrix.Cartridge
