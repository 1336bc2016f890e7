import Mathlib.Data.List.Induction
import Mathlib.Tactic.SplitIfs
import DotMatrix.Proofs.Cartridge.Banks
import DotMatrix.Proofs.Memory

namespace DotMatrix

namespace Cartridge

-- The window through which the RAM is reached.
abbrev InRamWindow (a : UInt16) : Prop := 0xa000 ≤ a.toNat ∧ a.toNat < 0xc000

-- RAM without a bank controller is always enabled. A controller is told by the last value that was
-- written to 0000-1FFF, by its low nibble.
def RamEnabledAfter (h : Header) (ws : List (UInt16 × UInt8)) : Prop :=
  h.kind = .romOnly ∨ (lastIn 0 0x2000 ws).any fun v => v.toNat % 16 = 0xa

instance (h : Header) (ws : List (UInt16 × UInt8)) : Decidable (RamEnabledAfter h ws) :=
  inferInstanceAs (Decidable (_ ∨ _))

def ramBankAfter (h : Header) (ws : List (UInt16 × UInt8)) : Nat :=
  if h.kind ≠ .romOnly ∧ modeAfter ws = 1 ∧ ramBankSize < h.ramBytes then secondaryAfter ws else 0

structure RamPlace where
  bank   : Nat
  offset : Nat
  deriving DecidableEq

-- Where a place lies in the RAM.
def RamPlace.index (p : RamPlace) : Nat := p.bank * ramBankSize + p.offset

-- The place that an address of the window reaches.
def ramPlace (h : Header) (ws : List (UInt16 × UInt8)) (a : UInt16) : RamPlace where
  bank   := ramBankAfter h ws
  offset := a.toNat % ramBankSize

-- What one more write stores.
def store? (h : Header) (ws : List (UInt16 × UInt8)) (w : UInt16 × UInt8) :
    Option (RamPlace × UInt8) :=
  if InRamWindow w.fst ∧ RamEnabledAfter h ws then some (ramPlace h ws w.fst, w.snd) else none

-- What some writes store that come after others.
def storedFrom (h : Header) (before : List (UInt16 × UInt8)) :
    List (UInt16 × UInt8) → List (RamPlace × UInt8)
  | []      => []
  | w :: ws => (store? h before w).toList ++ storedFrom h (before ++ [w]) ws

-- All bytes that were ever stored, in order.
def stored (h : Header) (ws : List (UInt16 × UInt8)) : List (RamPlace × UInt8) := storedFrom h [] ws

def lastStored (h : Header) (ws : List (UInt16 × UInt8)) (p : RamPlace) : Option UInt8 :=
  ((stored h ws).filter (·.fst = p)).getLast?.map Prod.snd

-- The byte at a place of a RAM that held some bytes at first.
def ramByteAfter (h : Header) (first : Array UInt8) (ws : List (UInt16 × UInt8)) (p : RamPlace) :
    UInt8 :=
  (lastStored h ws p).getD (first.getD p.index 0)

-- A cartridge with the RAM of a save, if there is one.
def withSave (c : Cartridge) : Option (Array UInt8) → Except CartridgeError Cartridge
  | none     => .ok c
  | some ram => c.restore ram

theorem stored_concat (h : Header) (ws : List (UInt16 × UInt8)) (w : UInt16 × UInt8) :
    stored h (ws ++ [w]) = stored h ws ++ (store? h ws w).toList := by
  have hf (before : List (UInt16 × UInt8)) : storedFrom h before (ws ++ [w]) =
      storedFrom h before ws ++ (store? h (before ++ ws) w).toList := by
    induction ws generalizing before with
    | nil           => simp [storedFrom]
    | cons w' ws ih => simp [storedFrom, ih]
  exact hf []

theorem ramByteAfter_concat (h : Header) (first : Array UInt8) (ws : List (UInt16 × UInt8))
    (w : UInt16 × UInt8) (p : RamPlace) :
    ramByteAfter h first (ws ++ [w]) p =
      if InRamWindow w.fst ∧ RamEnabledAfter h ws ∧ ramPlace h ws w.fst = p then w.snd
      else ramByteAfter h first ws p := by
  simp only [ramByteAfter, lastStored, stored_concat, List.filter_append, store?]
  split_ifs with hs hp hp
  · simp [hp.right.right]
  · have hn : ramPlace h ws w.fst ≠ p := fun hn => hp ⟨hs.left, hs.right, hn⟩
    simp [hn]
  · exact absurd ⟨hp.left, hp.right.left⟩ hs
  · simp

section Registers

variable {h : Header} {r : BankRegisters} {ws : List (UInt16 × UInt8)} {c : Cartridge}

-- Only the first quarter of the ROM windows reaches the switch of the RAM.
theorem ramEnabled_writes (hk : c.header.kind ≠ .romOnly) (hb : c.banks = {})
    (ws : List (UInt16 × UInt8)) :
    (c.writes ws).banks.ramEnabled = (lastIn 0 0x2000 ws).any fun v => v.toNat % 16 = 0xa := by
  induction ws using List.reverseRecOn with
  | nil => rw [writes, List.foldl_nil, hb]; rfl
  | append_singleton ws w ih =>
    rw [writes_concat, write_banks, writes_header, lastIn_concat]
    by_cases hw : w.fst.toNat < 0x8000
    case pos =>
      rw [if_pos hw, BankRegisters.write_eq hk hw, ih]
      split_ifs
      case pos => simp [bitField]; rfl
      all_goals first | rfl | omega
    case neg => rw [if_neg hw, if_neg (by omega), ih]

theorem ramBytes_eq (h : Header) : h.ramBytes = h.ramSize.banks * ramBankSize := by
  unfold Header.ramBytes
  rfl

theorem secondaryAfter_lt (ws : List (UInt16 × UInt8)) : secondaryAfter ws < 4 := by
  simp only [secondaryAfter]
  split <;> omega

theorem ramBanks_cases (h : Header) : h.ramSize.banks ≤ 1 ∨ 4 ≤ h.ramSize.banks := by
  cases h.ramSize <;> decide

-- A RAM of more than one bank has at least as many as the register can name.
theorem ramBankAfter_lt (hr : h.ramBytes ≠ 0) (ws : List (UInt16 × UInt8)) :
    ramBankAfter h ws < h.ramSize.banks := by
  have hs := secondaryAfter_lt ws
  have hb := ramBanks_cases h
  rw [ramBytes_eq] at hr
  simp only [ramBankAfter, ramBytes_eq]
  split
  case isTrue hl =>
    have hl : ramBankSize < h.ramSize.banks * ramBankSize := hl.right.right
    simp only [ramBankSize] at hl
    omega
  case isFalse => exact Nat.pos_of_mul_pos_right (Nat.pos_of_ne_zero hr)

theorem largeRam_eq (h : Header) : h.largeRam = decide (ramBankSize < h.ramBytes) := by
  rw [ramBytes_eq, Header.largeRam]
  cases h.ramSize <;> rfl

-- The registers lead to the place that the writes tell of, while the RAM is enabled.
theorem ramOffset?_writes (hb : c.banks = {}) (ws : List (UInt16 × UInt8)) (a : UInt16) :
    (c.writes ws).banks.ramOffset? (c.writes ws).header a =
      if RamEnabledAfter c.header ws then
        some (ramPlace c.header ws a).index
      else none := by
  rw [writes_header]
  by_cases hk : c.header.kind = .romOnly
  case pos =>
    simp [BankRegisters.ramOffset?, hk, RamEnabledAfter, RamPlace.index, ramPlace, ramBankAfter]
  case neg =>
    have hl := latched_writes hk hb ws
    have he := ramEnabled_writes hk hb ws
    have hbank : (c.writes ws).banks.ramBank c.header = ramBankAfter c.header ws := by
      simp [BankRegisters.ramBank, ramBankAfter, largeRam_eq, hl.advanced, hl.secondary, hk]
    simp only [BankRegisters.ramOffset?, RamEnabledAfter, RamPlace.index, ramPlace, hbank, he, hk,
      false_or]

-- Every place that is reached lies in the RAM, and no other one at the same index.
theorem ramPlace_index_lt (hr : h.ramBytes ≠ 0) (ws : List (UInt16 × UInt8)) (a : UInt16) :
    (ramPlace h ws a).index < h.ramBytes := by
  have hb := ramBankAfter_lt hr ws
  have ha : a.toNat % ramBankSize < ramBankSize := Nat.mod_lt _ (by decide)
  calc ramBankAfter h ws * ramBankSize + a.toNat % ramBankSize
    _ < (ramBankAfter h ws + 1) * ramBankSize := by
      rw [Nat.succ_mul]
      exact Nat.add_lt_add_left ha _
    _ ≤ h.ramSize.banks * ramBankSize := Nat.mul_le_mul_right _ hb
    _ = h.ramBytes := (ramBytes_eq h).symm

theorem RamPlace.index_inj {p q : RamPlace} (hp : p.offset < ramBankSize)
    (hq : q.offset < ramBankSize) : p.index = q.index ↔ p = q := by
  rw [mk.injEq]
  simp only [index, ramBankSize] at hp hq ⊢
  omega

end Registers

section Contents

variable {c : Cartridge} {w : UInt16 × UInt8} {offset : Nat}

theorem write_ram_of_stored (hw : InRamWindow w.fst)
    (ho : c.banks.ramOffset? c.header w.fst = some offset) (hl : offset < c.header.ramBytes)
    (i : Nat) : (c.write w).ram.toArray.getD i 0 =
      if offset = i then w.snd else c.ram.toArray.getD i 0 := by
  have hw' : ¬w.fst.toNat < 0x8000 := Nat.not_lt.mpr (Nat.le_trans (by decide) hw.left)
  rw [write, if_neg hw', if_pos hw, writeRam, ho]
  exact Memory.getD_write c.ram hl w.snd i

theorem write_ram_of_not_stored
    (h : InRamWindow w.fst → c.banks.ramOffset? c.header w.fst = none) :
    (c.write w).ram.toArray = c.ram.toArray := by
  by_cases hr : w.fst.toNat < 0x8000
  case pos => rw [write, if_pos hr, writeRom]
  by_cases hw : InRamWindow w.fst
  case pos => rw [write, if_neg hr, if_pos hw, writeRam, h hw]
  case neg => rw [write, if_neg hr, if_neg hw]

-- Each place holds what was last stored there, or what it held at first.
theorem ram_writes (hb : c.banks = {}) (hr : c.header.ramBytes ≠ 0) (ws : List (UInt16 × UInt8))
    {p : RamPlace} (hp : p.offset < ramBankSize) :
    (c.writes ws).ram.toArray.getD p.index 0 = ramByteAfter c.header c.ram.toArray ws p := by
  induction ws using List.reverseRecOn with
  | nil => rfl
  | append_singleton ws w ih =>
    have ho := ramOffset?_writes hb ws w.fst
    rw [writes_concat, ramByteAfter_concat]
    by_cases hs : InRamWindow w.fst ∧ RamEnabledAfter c.header ws
    case pos =>
      have hl : (ramPlace c.header ws w.fst).index < (c.writes ws).header.ramBytes := by
        rw [writes_header]
        exact ramPlace_index_lt hr ws w.fst
      have hq : (ramPlace c.header ws w.fst).offset < ramBankSize := Nat.mod_lt _ (by decide)
      rw [if_pos hs.right] at ho
      rw [write_ram_of_stored hs.left ho hl, ih]
      simp only [RamPlace.index_inj hq hp, and_iff_right hs.left, and_iff_right hs.right]
    case neg =>
      rw [write_ram_of_not_stored, ih, if_neg fun h => hs ⟨h.left, h.right.left⟩]
      intro hw
      rw [ho, if_neg fun he => hs ⟨hw, he⟩]

theorem readRam_of_none {a : UInt16} (h : c.banks.ramOffset? c.header a = none) :
    c.readRam a = 0xff := by
  simp only [readRam, h]
  rfl

theorem readRam_of_absent (h : c.header.ramBytes = 0) (a : UInt16) : c.readRam a = 0xff := by
  simp only [readRam]
  split
  · simp [Memory.read, h, Memory.openBus]
  · rfl

theorem readRam_of_index {a : UInt16} (h : c.banks.ramOffset? c.header a = some offset)
    (hl : offset < c.header.ramBytes) : c.readRam a = c.ram.toArray.getD offset 0 := by
  simp only [readRam, h]
  rw [Memory.read_eq_getD _ _ (Nat.zero_lt_of_lt hl), Nat.mod_eq_of_lt hl]

end Contents

theorem withSave_eq {image : Array UInt8} {save : Option (Array UInt8)} {fresh c : Cartridge}
    (hf : ofImage image = .ok fresh) (hc : fresh.withSave save = .ok c) :
    c.header = fresh.header ∧ c.banks = {} ∧ c.rom.toArray = fresh.rom.toArray ∧
      ∀ i, c.ram.toArray.getD i 0 = (save.getD #[]).getD i 0 := by
  obtain ⟨header, fits, rfl⟩ := ofImage_eq hf
  cases save with
  | none =>
    obtain rfl := Except.ok.inj hc
    exact ⟨rfl, rfl, rfl, fun i => Memory.getD_zeros _ i⟩
  | some ram =>
    simp only [withSave, restore] at hc
    split at hc
    · obtain rfl := Except.ok.inj hc
      exact ⟨rfl, rfl, rfl, fun i => rfl⟩
    · cases hc

-- The RAM window shows, at every place that the writes lead to, the last byte that came there while
-- the RAM was enabled, or else what the RAM held at first: the bytes of a save, or zeros. It is the
-- open bus while the RAM is disabled, and where there is none.
theorem readRam_writes {image : Array UInt8} {save : Option (Array UInt8)} {fresh c : Cartridge}
    (hf : ofImage image = .ok fresh) (hc : fresh.withSave save = .ok c)
    (ws : List (UInt16 × UInt8)) :
    (∀ a, (c.writes ws).readRam a =
      if c.header.ramBytes = 0 ∨ ¬RamEnabledAfter c.header ws then 0xff
      else ramByteAfter c.header (save.getD #[]) ws (ramPlace c.header ws a)) ∧
    (∀ w, w.fst.toNat < 0x8000 ∨ ¬RamEnabledAfter c.header ws →
      (c.writes (ws ++ [w])).ram.toArray = (c.writes ws).ram.toArray) ∧
    (c.writes ws).rom.toArray = fresh.rom.toArray ∧
    (c.writes ws).ram.toArray.size = fresh.ram.toArray.size := by
  obtain ⟨hh, hb, hrom, hfirst⟩ := withSave_eq hf hc
  have ho := ramOffset?_writes hb ws
  refine ⟨fun a => ?shown, fun w hw => ?kept, (c.writes_rom ws).trans hrom, ?size⟩
  case shown =>
    split
    case isTrue hn =>
      cases hn
      case inl hz => exact readRam_of_absent (c.writes_header ws ▸ hz) a
      case inr hn => exact readRam_of_none ((ho a).trans (if_neg hn))
    case isFalse hn =>
      obtain ⟨hz, hn⟩ := not_or.mp hn
      have hl := ramPlace_index_lt hz ws a
      have hi := (ho a).trans (if_pos (not_not.mp hn))
      have hp : (ramPlace c.header ws a).offset < ramBankSize := Nat.mod_lt _ (by decide)
      rw [readRam_of_index hi (by rwa [writes_header]), ram_writes hb hz ws hp]
      simp only [ramByteAfter, hfirst]
  case kept =>
    rw [writes_concat]
    refine write_ram_of_not_stored fun hr => ?_
    have hn := hw.resolve_left (Nat.not_lt.mpr (Nat.le_trans (by decide) hr.left))
    exact (ho w.fst).trans (if_neg hn)
  case size => rw [Vector.size_toArray, Vector.size_toArray, writes_header, hh]

-- The shortest image of a cartridge with a battery and four banks of RAM.
def batteryImage : Array UInt8 :=
  .ofFn fun i : Fin 0x150 => if i.val = 0x147 ∨ i.val = 0x149 then 3 else 0

theorem ofImage_batteryImage : ∃ c, ofImage batteryImage = .ok c ∧
    c.header = { kind := .mbc1Battery, romCode := 0, ramSize := .banks4 } :=
  ofImage_of_codes { kind := .mbc1Battery, romCode := 0, ramSize := .banks4 }
    (Nat.le_of_eq Array.size_ofFn.symm) (by simp [batteryImage]; rfl) (by simp [batteryImage]; rfl)
    (by simp [batteryImage]; rfl) (by rw [batteryImage, Array.size_ofFn, romBytes_eq]; decide)

-- A byte that is stored in the third bank stays there while the first bank shows its own.
theorem readRam_writes_batteryImage :
    let save := Array.replicate 0x8000 7
    let ws := [(0x0000, 0x0a), (0x6000, 1), (0x4000, 2), (0xa123, 0x34), (0x4000, 0)]
    ∃ fresh c, ofImage batteryImage = .ok fresh ∧ fresh.withSave (some save) = .ok c ∧
      (c.writes ws).readRam 0xa123 = 7 ∧
      (c.writes (ws ++ [(0x4000, 2)])).readRam 0xa123 = 0x34 ∧
      (c.writes (ws ++ [(0x0000, 0)])).readRam 0xa123 = 0xff := by
  intro save ws
  obtain ⟨fresh, hf, hh⟩ := ofImage_batteryImage
  have hr : fresh.header.ramBytes = 0x8000 := by rw [hh, ramBytes_eq]; rfl
  have hs : save.size = fresh.header.ramBytes := by rw [hr, Array.size_replicate]
  have hc : fresh.withSave (some save) = .ok { fresh with ram := ⟨save, hs⟩ } := by
    simp only [withSave, restore, dif_pos hs]
    rfl
  have hw (ws : List (UInt16 × UInt8)) := (readRam_writes hf hc ws).left 0xa123
  simp only [hh] at hw hr
  refine ⟨fresh, _, hf, hc, (hw _).trans ?_, (hw _).trans ?_, (hw _).trans ?_⟩
  all_goals
    simp [ws, save, hr, RamEnabledAfter, ramByteAfter, lastStored, stored, storedFrom, store?,
      InRamWindow, lastIn, ramPlace, ramBankAfter, modeAfter, secondaryAfter, ramBankSize,
      RamPlace.index]

end Cartridge
end DotMatrix
