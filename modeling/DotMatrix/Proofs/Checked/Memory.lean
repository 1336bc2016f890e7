import DotMatrix.Cartridge.Basic
import DotMatrix.Proofs.Cartridge.Image
import DotMatrix.Proofs.Checked.Word

namespace DotMatrix

namespace Memory

variable {size k : Nat}

def checkedIndex (size offset : Nat) : Checked (Fin size) := do
  let mask ← Checked.sub size 1
  Checked.index size (offset &&& mask)

def checkedRead (m : Memory size) (offset : Nat) : Checked UInt8 := do
  let i ← checkedIndex size offset
  return m.get i

def checkedWrite (m : Memory size) (offset : Nat) (v : UInt8) : Checked (Memory size) := do
  let i ← checkedIndex size offset
  return m.set i v

-- Some bytes in a row from an index on.
def checkedExtract (m : Memory size) (start length : Nat) : Checked (Array UInt8) := do
  let stop ← Checked.add 64 start length
  if stop ≤ size then some (m.toArray.extract start stop) else none

def checkedBlock (m : Memory size) (offset length : Nat) : Checked (Array UInt8) := do
  let start ← checkedIndex size offset
  m.checkedExtract start length

theorem checkedIndex_eq (hs : size = 1 <<< k) (offset : Nat) (h : offset % size < size) :
    checkedIndex size offset = some ⟨offset % size, h⟩ := by
  have hp : size = 2 ^ k := hs.trans (Nat.one_shiftLeft k)
  have hm : offset &&& (size - 1) = offset % size := by
    rw [hp, Nat.and_two_pow_sub_one_eq_mod]
  rw [checkedIndex, Checked.sub_eq (Nat.zero_lt_of_lt h)]
  simp only [Option.bind_eq_bind, Option.bind_some, hm]
  exact Checked.index_eq h

theorem checkedRead_eq (m : Memory size) (hs : size = 1 <<< k) (offset : Nat) :
    m.checkedRead offset = some (m.read offset) := by
  have hp : 0 < size := hs ▸ Nat.one_shiftLeft k ▸ Nat.two_pow_pos k
  have hm := Nat.mod_lt offset hp
  rw [checkedRead, checkedIndex_eq hs offset hm, read_eq_getElem m hm]
  rfl

theorem checkedWrite_eq (m : Memory size) (hs : size = 1 <<< k) (offset : Nat) (v : UInt8) :
    m.checkedWrite offset v = some (m.write offset v) := by
  have hp : 0 < size := hs ▸ Nat.one_shiftLeft k ▸ Nat.two_pow_pos k
  have hm := Nat.mod_lt offset hp
  rw [checkedWrite, checkedIndex_eq hs offset hm, write_eq_set m v hm]
  rfl

-- Blocks already stop at the end of their memory.
theorem checkedBlock_eq (m : Memory size) (hs : size = 1 <<< k) (offset : Nat) {length : Nat}
    (hl : size + length < 1 <<< 64) : m.checkedBlock offset length = m.block? offset length := by
  have hp : 0 < size := hs ▸ Nat.one_shiftLeft k ▸ Nat.two_pow_pos k
  have hm := Nat.mod_lt offset hp
  rw [checkedBlock, checkedIndex_eq hs offset hm, block?, if_neg (Nat.ne_of_gt hp)]
  simp only [Option.bind_eq_bind, Option.bind_some]
  rw [checkedExtract, Checked.add_eq (by omega)]
  rfl

end Memory

namespace Cartridge

namespace Header

theorem romBytes_eq_shift (h : Header) : h.romBytes = 1 <<< (15 + h.romCode.val) := by
  rw [romBytes_eq]
  exact (by decide : ∀ code : Fin 7, romBankSize * (2 <<< code.val) = 1 <<< (15 + code.val)) _

theorem romBytes_le (h : Header) : h.romBytes ≤ 1 <<< 21 := by
  rw [romBytes_eq_shift]
  exact (by decide : ∀ code : Fin 7, 1 <<< (15 + code.val) ≤ 1 <<< 21) _

theorem ramBytes_le (h : Header) : h.ramBytes ≤ 1 <<< 17 := by
  unfold Header.ramBytes
  cases h.ramSize <;> decide

theorem ramBytes_eq_shift (h : Header) (hz : h.ramBytes ≠ 0) : ∃ k, h.ramBytes = 1 <<< k := by
  unfold Header.ramBytes at hz ⊢
  cases hr : h.ramSize
  case absent  => exact absurd (hr ▸ rfl) hz
  case banks1  => exact ⟨13, rfl⟩
  case banks4  => exact ⟨15, rfl⟩
  case banks16 => exact ⟨17, rfl⟩
  case banks8  => exact ⟨16, rfl⟩

end Header

-- The address has no more than four quarters.
def BankRegisters.checkedWrite (h : Header) (r : BankRegisters) (a : UInt16) (v : UInt8) :
    Checked BankRegisters :=
  match h.kind with
  | .romOnly => some r
  | _ =>
    match a.toNat / 0x2000 % 4 with
    | 0 => some { r with ramEnabled := bitField v 0 4 == 0xa }
    | 1 => some { r with primary := max 1 (bitField v 0 h.primaryBits) }
    | 2 => some { r with secondary := bitField v 0 2 }
    | 3 => some { r with advanced := testBit v 0 }
    | _ => none

def checkedReadRom (c : Cartridge) (a : UInt16) : Checked UInt8 :=
  c.rom.checkedRead (c.banks.romOffset c.header a)

def checkedWriteRom (c : Cartridge) (a : UInt16) (v : UInt8) : Checked Cartridge := do
  let banks ← c.banks.checkedWrite c.header a v
  return { c with banks }

-- RAM of no bytes is not there to be indexed.
def checkedReadRam (c : Cartridge) (a : UInt16) : Checked UInt8 :=
  match c.banks.ramOffset? c.header a with
  | some offset =>
    if c.header.ramBytes = 0 then some Memory.openBus else c.ram.checkedRead offset
  | none => some Memory.openBus

def checkedWriteRam (c : Cartridge) (a : UInt16) (v : UInt8) : Checked Cartridge :=
  match c.banks.ramOffset? c.header a with
  | some offset =>
    if c.header.ramBytes = 0 then some c
    else do
      let ram ← c.ram.checkedWrite offset v
      return { c with ram }
  | none => some c

def checkedRomBlock (c : Cartridge) (a : UInt16) (length : Nat) : Checked (Array UInt8) :=
  c.rom.checkedBlock (c.banks.romOffset c.header a) length

def checkedRamBlock (c : Cartridge) (a : UInt16) (length : Nat) : Checked (Array UInt8) :=
  match c.banks.ramOffset? c.header a with
  | some offset =>
    if c.header.ramBytes = 0 then Memory.openBusBlock? length else c.ram.checkedBlock offset length
  | none => Memory.openBusBlock? length

variable (c : Cartridge) (a : UInt16) {length : Nat}

theorem BankRegisters.checkedWrite_eq (h : Header) (r : BankRegisters) (a : UInt16) (v : UInt8) :
    r.checkedWrite h a v = some (r.write h a v) := by
  have hq : a.toNat / 0x2000 % 4 < 4 := Nat.mod_lt _ (by decide)
  simp only [checkedWrite, write]
  generalize a.toNat / 0x2000 % 4 = quarter at hq
  cases h.kind
  case romOnly => rfl
  all_goals
    obtain rfl | rfl | rfl | rfl : quarter = 0 ∨ quarter = 1 ∨ quarter = 2 ∨ quarter = 3 := by omega
    all_goals rfl

theorem checkedReadRom_eq : c.checkedReadRom a = some (c.readRom a) :=
  c.rom.checkedRead_eq c.header.romBytes_eq_shift _

theorem checkedWriteRom_eq (v : UInt8) : c.checkedWriteRom a v = some (c.writeRom a v) := by
  rw [checkedWriteRom, BankRegisters.checkedWrite_eq]
  rfl

theorem checkedReadRam_eq : c.checkedReadRam a = some (c.readRam a) := by
  simp only [checkedReadRam, readRam]
  cases c.banks.ramOffset? c.header a
  case none => rfl
  case some offset =>
    dsimp only
    split
    case isTrue hz => simp [Memory.read, hz]
    case isFalse hz =>
      have ⟨k, hs⟩ := c.header.ramBytes_eq_shift hz
      exact c.ram.checkedRead_eq hs offset

theorem checkedWriteRam_eq (v : UInt8) : c.checkedWriteRam a v = some (c.writeRam a v) := by
  simp only [checkedWriteRam, writeRam]
  cases c.banks.ramOffset? c.header a
  case none => rfl
  case some offset =>
    dsimp only
    split
    case isTrue hz => simp [Memory.write, hz]
    case isFalse hz =>
      have ⟨k, hs⟩ := c.header.ramBytes_eq_shift hz
      rw [c.ram.checkedWrite_eq hs]
      rfl

theorem checkedRomBlock_eq (hl : length ≤ romBankSize) :
    c.checkedRomBlock a length = c.romBlock? a length := by
  have := c.header.romBytes_le
  rw [romBankSize] at hl
  exact c.rom.checkedBlock_eq c.header.romBytes_eq_shift _ (by omega)

theorem checkedRamBlock_eq (hl : length ≤ romBankSize) :
    c.checkedRamBlock a length = c.ramBlock? a length := by
  simp only [checkedRamBlock, ramBlock?]
  cases c.banks.ramOffset? c.header a
  case none => rfl
  case some offset =>
    dsimp only
    split
    case isTrue hz => rw [Memory.block?, if_pos hz]
    case isFalse hz =>
      obtain ⟨k, hs⟩ := c.header.ramBytes_eq_shift hz
      have := c.header.ramBytes_le
      rw [romBankSize] at hl
      exact c.ram.checkedBlock_eq hs offset (by omega)

end Cartridge
end DotMatrix
