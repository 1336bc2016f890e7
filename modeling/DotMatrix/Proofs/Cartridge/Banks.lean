import Mathlib.Data.List.Induction
import Mathlib.Tactic.SplitIfs
import DotMatrix.Proofs.Cartridge.Image
import DotMatrix.Proofs.Memory

namespace DotMatrix.Cartridge

-- A write at an address of the processor: the ROM windows take it, or the RAM window, or neither.
def write (c : Cartridge) (w : UInt16 × UInt8) : Cartridge :=
  if w.fst.toNat < 0x8000 then c.writeRom w.fst w.snd
  else if 0xa000 ≤ w.fst.toNat ∧ w.fst.toNat < 0xc000 then c.writeRam w.fst w.snd
  else c

def writes (c : Cartridge) (ws : List (UInt16 × UInt8)) : Cartridge := ws.foldl write c

-- The last value that was written at an address from `low` up to `high`.
def lastIn (low high : Nat) (ws : List (UInt16 × UInt8)) : Option UInt8 :=
  (ws.filter fun w => low ≤ w.fst.toNat ∧ w.fst.toNat < high).getLast?.map Prod.snd

-- As many bits as it takes to number the ROM's banks, but no more than five. Zero stands for one.
def primaryAfter (h : Header) (ws : List (UInt16 × UInt8)) : Nat :=
  match lastIn 0x2000 0x4000 ws with
  | none   => 1
  | some v =>
    let n := v.toNat % (1 <<< min 5 h.romBanks.log2)
    if n = 0 then 1 else n

def secondaryAfter (ws : List (UInt16 × UInt8)) : Nat :=
  match lastIn 0x4000 0x6000 ws with
  | none   => 0
  | some v => v.toNat % 4

def modeAfter (ws : List (UInt16 × UInt8)) : Nat :=
  match lastIn 0x6000 0x8000 ws with
  | none   => 0
  | some v => v.toNat % 2

-- The ROM bank behind an address of the two windows.
def shownBank (h : Header) (ws : List (UInt16 × UInt8)) (a : UInt16) : Nat :=
  if a.toNat < 0x4000 then
    if modeAfter ws = 1 ∧ 32 < h.romBanks then 32 * secondaryAfter ws % h.romBanks else 0
  else if modeAfter ws = 0 ∨ 32 < h.romBanks then
    (32 * secondaryAfter ws + primaryAfter h ws) % h.romBanks
  else
    primaryAfter h ws

theorem writeRam_eq (c : Cartridge) (a : UInt16) (v : UInt8) :
    ∃ ram, c.writeRam a v = { c with ram } := by
  simp only [writeRam]
  split
  · exact ⟨_, rfl⟩
  · exact ⟨_, rfl⟩

-- A write reaches the bank registers or the RAM.
theorem write_cases (c : Cartridge) (w : UInt16 × UInt8) :
    w.fst.toNat < 0x8000 ∧ c.write w = { c with banks := c.banks.write c.header w.fst w.snd } ∨
      0x8000 ≤ w.fst.toNat ∧ ∃ ram, c.write w = { c with ram } := by
  simp only [write]
  split
  case isTrue h => exact .inl ⟨h, rfl⟩
  case isFalse h =>
    refine .inr ⟨Nat.le_of_not_lt h, ?_⟩
    split
    · exact c.writeRam_eq w.fst w.snd
    · exact ⟨c.ram, rfl⟩

theorem write_header (c : Cartridge) (w : UInt16 × UInt8) : (c.write w).header = c.header := by
  obtain ⟨-, h⟩ | ⟨-, _, h⟩ := c.write_cases w <;> rw [h]

theorem write_rom (c : Cartridge) (w : UInt16 × UInt8) :
    (c.write w).rom.toArray = c.rom.toArray := by
  obtain ⟨-, h⟩ | ⟨-, _, h⟩ := c.write_cases w <;> rw [h]

theorem write_banks (c : Cartridge) (w : UInt16 × UInt8) :
    (c.write w).banks =
      if w.fst.toNat < 0x8000 then c.banks.write c.header w.fst w.snd else c.banks := by
  obtain ⟨hw, h⟩ | ⟨hw, _, h⟩ := c.write_cases w
  · rw [h, if_pos hw]
  · rw [h, if_neg (Nat.not_lt.mpr hw)]

theorem writes_concat (c : Cartridge) (ws : List (UInt16 × UInt8)) (w : UInt16 × UInt8) :
    c.writes (ws ++ [w]) = (c.writes ws).write w := by
  simp [writes]

theorem writes_header (c : Cartridge) (ws : List (UInt16 × UInt8)) :
    (c.writes ws).header = c.header := by
  induction ws generalizing c with
  | nil          => rfl
  | cons w ws ih => exact (ih (c.write w)).trans (c.write_header w)

theorem writes_rom (c : Cartridge) (ws : List (UInt16 × UInt8)) :
    (c.writes ws).rom.toArray = c.rom.toArray := by
  induction ws generalizing c with
  | nil          => rfl
  | cons w ws ih => exact (ih (c.write w)).trans (c.write_rom w)

theorem lastIn_concat (low high : Nat) (ws : List (UInt16 × UInt8)) (w : UInt16 × UInt8) :
    lastIn low high (ws ++ [w]) =
      if low ≤ w.fst.toNat ∧ w.fst.toNat < high then some w.snd else lastIn low high ws := by
  simp only [lastIn, List.filter_append]
  split
  case isTrue h  => simp [h]
  case isFalse h => simp [h]

namespace Header

variable (h : Header)

theorem primaryBits_eq : h.primaryBits = min 5 h.romBanks.log2 :=
  (by decide : ∀ code : Fin 7, min 5 (code.val + 1) = min 5 (2 <<< code.val).log2) h.romCode

-- Up to 32 banks the primary register can name them all. Beyond, it names a part of 32 banks.
theorem romBanks_cases :
    32 % h.romBanks = 0 ∧ h.romBanks = 1 <<< h.primaryBits ∨
      32 < h.romBanks ∧ h.romBanks % 32 = 0 ∧ 1 <<< h.primaryBits = 32 :=
  (by decide : ∀ code : Fin 7,
    32 % (2 <<< code.val) = 0 ∧ 2 <<< code.val = 1 <<< min 5 (code.val + 1) ∨
      32 < 2 <<< code.val ∧ 2 <<< code.val % 32 = 0 ∧ 1 <<< min 5 (code.val + 1) = 32) h.romCode

end Header

namespace BankRegisters

variable {h : Header} {r : BankRegisters} {a : UInt16} {v : UInt8}

-- Each register has the quarter of the ROM windows that it is written through.
theorem write_eq (hk : h.kind ≠ .romOnly) (ha : a.toNat < 0x8000) : r.write h a v =
    { primary    := if 0x2000 ≤ a.toNat ∧ a.toNat < 0x4000
        then max 1 (bitField v 0 h.primaryBits) else r.primary
      secondary  := if 0x4000 ≤ a.toNat ∧ a.toNat < 0x6000 then bitField v 0 2 else r.secondary
      advanced   := if 0x6000 ≤ a.toNat ∧ a.toNat < 0x8000 then testBit v 0 else r.advanced
      ramEnabled := if a.toNat < 0x2000 then bitField v 0 4 == 0xa else r.ramEnabled } := by
  simp only [write]
  split <;> congr 1 <;> grind

end BankRegisters

section Registers

variable {h : Header} {r : BankRegisters} {ws : List (UInt16 × UInt8)} {w : UInt16 × UInt8}

-- The registers that choose a ROM bank are told by what was written.
structure Latched (h : Header) (ws : List (UInt16 × UInt8)) (r : BankRegisters) : Prop where
  primary   : r.primary = primaryAfter h ws
  secondary : r.secondary = secondaryAfter ws
  advanced  : r.advanced = (modeAfter ws == 1)

theorem Latched.initial (h : Header) : Latched h [] {} := ⟨rfl, rfl, rfl⟩

theorem Latched.write (hl : Latched h ws r) (hk : h.kind ≠ .romOnly)
    (hw : w.fst.toNat < 0x8000) : Latched h (ws ++ [w]) (r.write h w.fst w.snd) := by
  rw [BankRegisters.write_eq hk hw]
  constructor
  case primary =>
    simp only [primaryAfter, lastIn_concat, bitField, Nat.shiftRight_zero, Header.primaryBits_eq]
    split_ifs
    · simp only
      split <;> omega
    · exact hl.primary
  case secondary =>
    simp only [secondaryAfter, lastIn_concat, bitField, Nat.shiftRight_zero]
    split_ifs
    · rfl
    · exact hl.secondary
  case advanced =>
    simp only [modeAfter, lastIn_concat, testBit, Nat.testBit_zero]
    split_ifs
    · rfl
    · exact hl.advanced

theorem Latched.skip (hl : Latched h ws r) (hw : 0x8000 ≤ w.fst.toNat) :
    Latched h (ws ++ [w]) r := by
  have hs {low high} (hh : high ≤ 0x8000) : lastIn low high (ws ++ [w]) = lastIn low high ws := by
    rw [lastIn_concat, if_neg (by omega)]
  constructor
  case primary   => simp only [hl.primary, primaryAfter, hs (by decide : 0x4000 ≤ 0x8000)]
  case secondary => simp only [hl.secondary, secondaryAfter, hs (by decide : 0x6000 ≤ 0x8000)]
  case advanced  => simp only [hl.advanced, modeAfter, hs (by decide : 0x8000 ≤ 0x8000)]

theorem latched_writes {c : Cartridge} (hk : c.header.kind ≠ .romOnly) (hb : c.banks = {})
    (ws : List (UInt16 × UInt8)) : Latched c.header ws (c.writes ws).banks := by
  induction ws using List.reverseRecOn with
  | nil => exact hb ▸ .initial c.header
  | append_singleton ws w ih =>
    rw [writes_concat, write_banks, writes_header]
    split
    case isTrue hw  => exact ih.write hk hw
    case isFalse hw => exact ih.skip (Nat.le_of_not_lt hw)

end Registers

section Windows

variable {h : Header} {r : BankRegisters} {ws : List (UInt16 × UInt8)} {a : UInt16}

theorem modeAfter_lt (ws : List (UInt16 × UInt8)) : modeAfter ws < 2 := by
  simp only [modeAfter]
  split <;> omega

theorem primaryAfter_pos (h : Header) (ws : List (UInt16 × UInt8)) : 0 < primaryAfter h ws := by
  simp only [primaryAfter]
  split
  · decide
  · split <;> omega

theorem primaryAfter_lt (h : Header) (ws : List (UInt16 × UInt8)) :
    primaryAfter h ws < 1 <<< h.primaryBits := by
  have hp : 1 < 1 <<< h.primaryBits :=
    (by decide : ∀ code : Fin 7, 1 < 1 <<< min 5 (code.val + 1)) h.romCode
  simp only [primaryAfter, ← h.primaryBits_eq]
  split
  · exact hp
  split
  · exact hp
  · exact Nat.mod_lt _ (Nat.zero_lt_of_lt hp)

-- With at most 32 banks the secondary register only adds whole turns around the ROM.
theorem add_primary_mod {banks s p : Nat} (hb : 32 % banks = 0) (hp : p < banks) :
    (32 * s + p) % banks = p := by
  have ⟨k, hk⟩ := Nat.dvd_of_mod_eq_zero hb
  rw [hk, Nat.mul_assoc, Nat.mul_add_mod, Nat.mod_eq_of_lt hp]

theorem shownBank_lt (h : Header) (ws : List (UInt16 × UInt8)) (a : UInt16) :
    shownBank h ws a < h.romBanks := by
  have hp := primaryAfter_lt h ws
  have hb := h.romBanks_cases
  have hz : 0 < h.romBanks := by omega
  simp only [shownBank]
  split_ifs
  · exact Nat.mod_lt _ hz
  · exact hz
  · exact Nat.mod_lt _ hz
  · omega

-- The banks that a zero in the primary register stands for are out of reach.
theorem shownBank_mod_ne_zero (h : Header) (ws : List (UInt16 × UInt8)) (ha : 0x4000 ≤ a.toNat) :
    shownBank h ws a % 32 ≠ 0 := by
  have hlt := primaryAfter_lt h ws
  have hpos := primaryAfter_pos h ws
  have hle : 1 <<< h.primaryBits ≤ 32 :=
    (by decide : ∀ code : Fin 7, 1 <<< min 5 (code.val + 1) ≤ 32) h.romCode
  have hp : primaryAfter h ws % 32 = primaryAfter h ws := Nat.mod_eq_of_lt (by omega)
  simp only [shownBank, if_neg (Nat.not_lt.mpr ha)]
  split
  case isFalse => omega
  case isTrue =>
    obtain ⟨hd, hb⟩ | ⟨-, hd, -⟩ := h.romBanks_cases
    · rw [add_primary_mod hd (hb ▸ hlt)]
      omega
    · rw [Nat.mod_mod_of_dvd _ (Nat.dvd_of_mod_eq_zero hd), Nat.mul_add_mod]
      omega

theorem testBit_14 (ha : a.toNat < 0x8000) : a.toNat.testBit 14 = decide (0x4000 ≤ a.toNat) := by
  rw [Nat.testBit_eq_decide_div_mod_eq]
  congr 1
  grind

theorem Latched.bank_mod (hl : Latched h ws r) (ha : a.toNat < 0x8000) :
    (if a.toNat.testBit 14 then r.upperBank h else r.lowerBank h) % h.romBanks =
      shownBank h ws a := by
  have hp := primaryAfter_lt h ws
  have hb := h.romBanks_cases
  have hm : ¬modeAfter ws = 1 ↔ modeAfter ws = 0 := by have := modeAfter_lt ws; omega
  rw [testBit_14 ha]
  simp only [shownBank, BankRegisters.upperBank, BankRegisters.lowerBank, Header.largeRom,
    hl.primary, hl.secondary, hl.advanced, Bool.and_eq_true, Bool.or_eq_true, Bool.not_eq_true',
    beq_iff_eq, beq_eq_false_iff_ne, decide_eq_true_eq, hm]
  by_cases hu : a.toNat < 0x4000
  case pos =>
    rw [if_neg (Nat.not_le.mpr hu), if_pos hu]
    split
    · rfl
    · exact Nat.zero_mod _
  case neg =>
    rw [if_pos (Nat.not_lt.mp hu), if_neg hu]
    split
    · rfl
    · exact Nat.mod_eq_of_lt (by omega)

theorem Latched.romOffset_mod (hl : Latched h ws r) (hk : h.kind ≠ .romOnly)
    (ha : a.toNat < 0x8000) :
    r.romOffset h a % h.romBytes = shownBank h ws a * romBankSize + a.toNat % romBankSize := by
  have hb (bank : Nat) : (bank * romBankSize + a.toNat % romBankSize) % h.romBytes =
      bank % h.romBanks * romBankSize + a.toNat % romBankSize := by
    have hd : (bank * romBankSize + a.toNat % romBankSize) / romBankSize = bank := by
      simp only [romBankSize]
      omega
    rw [romBytes_eq, Nat.mod_mul, hd, Nat.mul_add_mod_self_right, Nat.mod_mod, Nat.add_comm,
      Nat.mul_comm]
  simp only [← hl.bank_mod ha, ← hb, BankRegisters.romOffset]

end Windows

-- After any writes a ROM window shows the bank that they select, out of the image and the zeros
-- that fill up its declared size.
theorem readRom_writes {image : Array UInt8} {c : Cartridge} (hc : ofImage image = .ok c)
    (hk : c.header.kind ≠ .romOnly) (ws : List (UInt16 × UInt8)) {a : UInt16}
    (ha : a.toNat < 0x8000) :
    (c.writes ws).readRom a =
        image.getD (shownBank c.header ws a * romBankSize + a.toNat % romBankSize) 0 ∧
      shownBank c.header ws a < c.header.romBanks ∧
      (0x4000 ≤ a.toNat → shownBank c.header ws a % 32 ≠ 0) := by
  obtain ⟨header, fits, rfl⟩ := ofImage_eq hc
  have hl := latched_writes hk rfl ws
  refine ⟨?_, shownBank_lt header ws a, shownBank_mod_ne_zero header ws⟩
  rw [readRom, Memory.read_eq_getD _ _ (romBytes_pos _), writes_rom, writes_header,
    hl.romOffset_mod hk ha, padded_getD]

-- The bank beyond the last one is the first one again, where the image holds its header.
theorem readRom_writes_headerOnly : ∃ c, ofImage headerOnly = .ok c ∧
    c.header.kind ≠ .romOnly ∧ (0x148 : UInt16).toNat < 0x8000 ∧
    (c.writes [(0x6000, 1), (0x4000, 2)]).readRom 0x148 = 5 := by
  have ⟨c, hc, hh⟩ := ofImage_headerOnly
  have hk : c.header.kind ≠ .romOnly := by simp [hh]
  have ha : (0x148 : UInt16).toNat < 0x8000 := by decide
  have ⟨hr, _⟩ := readRom_writes hc hk [(0x6000, 1), (0x4000, 2)] ha
  refine ⟨c, hc, hk, ha, hr.trans ?_⟩
  have hb : shownBank c.header [(0x6000, 1), (0x4000, 2)] 0x148 = 0 := by
    rw [hh]
    decide
  rw [hb]
  simp [headerOnly, romBankSize]

end DotMatrix.Cartridge
