import Mathlib.Data.FinEnum
import DotMatrix.Proofs.Cartridge.Save

namespace DotMatrix.Cartridge

-- Something that may be wrong with an image, and the error that tells of it.
structure Fault where
  present : Bool
  error   : CartridgeError

variable (image : Array UInt8)

-- The size of the ROM that the image declares.
def declaredRom : Nat := (2 <<< (romByte image).toNat) * 0x4000

-- The sizes of RAM that have a code.
def ramSizes : List (UInt8 × Nat) := [(0, 0), (2, 0x2000), (3, 0x8000), (4, 0x20000), (5, 0x10000)]

def declaredRam? : Option Nat := ramSizes.lookup (ramByte image)

-- In the order in which they are looked for.
def faults : List Fault := [
  ⟨image.size < 0x150, .truncated image.size⟩,
  ⟨6 < romByte image, .unknownRomSize (romByte image)⟩,
  ⟨(declaredRam? image).isNone, .unknownRamSize (ramByte image)⟩,
  ⟨3 < kindByte image, .unknownKind (kindByte image)⟩,
  ⟨declaredRom image < image.size, .largeRom⟩]

def firstFault? : Option CartridgeError := (faults image).find? Fault.present |>.map Fault.error

-- The codes that have a meaning.
theorem romCode?_isNone (id : UInt8) : (Header.romCode? id).isNone = decide (6 < id) := by
  revert id
  decide +kernel

theorem romCode?_eq_some {id : UInt8} {code : Fin 7} (h : Header.romCode? id = some code) :
    code.val = id.toNat := by
  have ⟨_, hc⟩ := Option.dite_none_right_eq_some.mp h
  exact congrArg Fin.val (Option.some.inj hc).symm

theorem lookup_ramSizes (id : UInt8) :
    ramSizes.lookup id = (RamSize.ofByte? id).map fun s => s.banks * ramBankSize := by
  revert id
  decide +kernel

theorem kind?_isNone (id : UInt8) : (Kind.ofByte? id).isNone = decide (3 < id) := by
  revert id
  decide +kernel

variable {image}

-- The faults by what a header is read with.
theorem faults_eq : faults image = [
    ⟨image.size < 0x150, .truncated image.size⟩,
    ⟨(Header.romCode? (romByte image)).isNone, .unknownRomSize (romByte image)⟩,
    ⟨(RamSize.ofByte? (ramByte image)).isNone, .unknownRamSize (ramByte image)⟩,
    ⟨(Kind.ofByte? (kindByte image)).isNone, .unknownKind (kindByte image)⟩,
    ⟨declaredRom image < image.size, .largeRom⟩] := by
  rw [faults, declaredRam?, lookup_ramSizes, Option.isNone_map, romCode?_isNone, kind?_isNone]

theorem romBytes_of_code {header : Header}
    (h : Header.romCode? (romByte image) = some header.romCode) :
    header.romBytes = declaredRom image := by
  rw [romBytes_eq, declaredRom, ← romCode?_eq_some h]
  exact Nat.mul_comm ..

-- Without a fault there is a header.
theorem holds_of_faultless (h : firstFault? image = none) : ∃ header, Holds image header := by
  have hn := List.find?_eq_none.mp (Option.map_eq_none_iff.mp h)
  simp only [faults_eq, List.forall_mem_cons, decide_eq_true_eq, Option.isNone_iff_eq_none] at hn
  obtain ⟨hl, hc, hr, hk, hs, _⟩ := hn
  obtain ⟨romCode, hc⟩ := Option.ne_none_iff_exists'.mp hc
  obtain ⟨ramSize, hr⟩ := Option.ne_none_iff_exists'.mp hr
  obtain ⟨kind, hk⟩ := Option.ne_none_iff_exists'.mp hk
  have hd : Header.romBytes { kind, romCode, ramSize } = declaredRom image := romBytes_of_code hc
  exact ⟨{ kind, romCode, ramSize }, Nat.le_of_not_lt hl, hk, hc, hr, hd ▸ Nat.le_of_not_lt hs⟩

-- The faults are found in their order.
theorem parse_of_fault {e : CartridgeError} (h : firstFault? image = some e) :
    Header.parse image = .error e := by
  rw [firstFault?, faults_eq] at h
  by_cases hl : image.size < 0x150
  case pos =>
    obtain rfl : .truncated image.size = e := by simpa [hl] using h
    exact dif_pos hl
  case neg =>
    have hb : 0x150 ≤ image.size := Nat.le_of_not_lt hl
    have hk : image[0x147] = kindByte image := Array.getElem_eq_getD 0
    have hc : image[0x148] = romByte image := Array.getElem_eq_getD 0
    have hr : image[0x149] = ramByte image := Array.getElem_eq_getD 0
    simp only [Header.parse, Header.endOffset, dif_neg hl, hk, hc, hr]
    cases hco : Header.romCode? (romByte image)
    case none =>
      obtain rfl : .unknownRomSize (romByte image) = e := by simpa [hl, hco] using h
      rfl
    case some romCode =>
      cases hra : RamSize.ofByte? (ramByte image)
      case none =>
        obtain rfl : .unknownRamSize (ramByte image) = e := by simpa [hl, hco, hra] using h
        rfl
      case some ramSize =>
        cases hki : Kind.ofByte? (kindByte image)
        case none =>
          obtain rfl : .unknownKind (kindByte image) = e := by simpa [hl, hco, hra, hki] using h
          rfl
        case some kind =>
          obtain ⟨hs, rfl⟩ : declaredRom image < image.size ∧ .largeRom = e := by
            simpa [hl, hco, hra, hki] using h
          have hd : Header.romBytes { kind, romCode, ramSize } = declaredRom image :=
            romBytes_of_code hco
          exact if_pos (hd ▸ hs)

-- Accepts an image, and looks at the sizes of both memories once more. ROM of a size that is no power
-- of two is refused, and there is no RAM of such a size.
def checkedOfImage (image : Array UInt8) : Checked (Except CartridgeError Cartridge) :=
  match ofImage image with
  | .error e => some (.error e)
  | .ok c =>
    if ¬c.header.romBytes.isPowerOfTwo then some (.error .largeRom)
    else if c.header.ramBytes = 0 ∨ c.header.ramBytes.isPowerOfTwo then some (.ok c)
    else none

-- No header declares such sizes.
theorem checkedOfImage_eq (image : Array UInt8) : checkedOfImage image = some (ofImage image) := by
  rw [checkedOfImage]
  cases ofImage image
  case error => rfl
  case ok c =>
    have hrom : c.header.romBytes.isPowerOfTwo := c.header.romBytes_isPowerOfTwo
    have hram : c.header.ramBytes = 0 ∨ c.header.ramBytes.isPowerOfTwo :=
      or_iff_not_imp_left.mpr c.header.ramBytes_isPowerOfTwo
    dsimp only
    rw [if_neg (not_not.mpr hrom), if_pos hram]

-- A cartridge as an image declares it, just made.
structure DeclaredBy (image : Array UInt8) (c : Cartridge) : Prop where
  kind     : Kind.ofByte? (kindByte image) = some c.header.kind
  romBytes : c.header.romBytes = declaredRom image
  rom      : c.rom.toArray = image ++ .replicate (declaredRom image - image.size) 0
  ram      : (declaredRam? image).map (.replicate · 0) = some c.ram.toArray
  banks    : c.banks = {}

namespace Holds

variable {header : Header} {n : Nat}

theorem declaredBy (h : Holds image header) : DeclaredBy image
    { header, rom := padded header image h.fits, ram := Memory.zeros _ } where
  kind     := h.kind
  romBytes := romBytes_of_code h.romCode
  rom      := by rw [← romBytes_of_code h.romCode, padded]
  ram      := by
    rw [declaredRam?, lookup_ramSizes, h.ramSize, Memory.zeros, Vector.toArray_replicate]
    unfold Header.ramBytes
    rfl
  banks    := rfl

theorem append_zeros (h : Holds image header) (hn : image.size + n ≤ header.romBytes) :
    Holds (image ++ Array.replicate n 0) header := by
  have hs : (image ++ Array.replicate n 0).size = image.size + n := by simp
  constructor
  case whole => exact hs ▸ Nat.le_trans h.whole (Nat.le_add_right ..)
  case fits  => exact hs ▸ hn
  case kind    => exact (congrArg Kind.ofByte? (getD_append_zeros ..)).trans h.kind
  case romCode => exact (congrArg Header.romCode? (getD_append_zeros ..)).trans h.romCode
  case ramSize => exact (congrArg RamSize.ofByte? (getD_append_zeros ..)).trans h.ramSize

theorem ofImage_append_zeros (h : Holds image header) (hn : image.size + n ≤ header.romBytes) :
    Cartridge.ofImage (image ++ Array.replicate n 0) = Cartridge.ofImage image := by
  have hz := h.append_zeros hn
  have hp : padded header (image ++ Array.replicate n 0) hz.fits = padded header image h.fits := by
    apply Vector.toArray_inj.mp
    simp only [padded, Array.append_assoc, Array.replicate_append_replicate, Array.size_append,
      Array.size_replicate]
    have hr : n + (header.romBytes - (image.size + n)) = header.romBytes - image.size := by omega
    rw [hr]
  rw [hz.ofImage, h.ofImage, hp]

end Holds

-- An image is refused for its first fault, and accepted if it has none. Then the cartridge is the one
-- that it declares; zeros at the end of the image make no difference, as long as they fit. The looks
-- at the sizes of the memories find nothing.
theorem ofImage_by_faults (image : Array UInt8) :
    checkedOfImage image = some (ofImage image) ∧
    match firstFault? image with
    | some e => ofImage image = .error e
    | none   =>
      ∃ c, ofImage image = .ok c ∧ DeclaredBy image c ∧
        ∀ n, image.size + n ≤ declaredRom image → ofImage (image ++ Array.replicate n 0) = .ok c := by
  refine ⟨checkedOfImage_eq image, ?_⟩
  cases hf : firstFault? image
  case some e => simp only [ofImage, parse_of_fault hf, bind, Except.bind]
  case none   =>
    obtain ⟨header, h⟩ := holds_of_faultless hf
    refine ⟨_, h.ofImage, h.declaredBy, fun n hn => ?_⟩
    exact (h.ofImage_append_zeros (romBytes_of_code h.romCode ▸ hn)).trans h.ofImage

end DotMatrix.Cartridge
