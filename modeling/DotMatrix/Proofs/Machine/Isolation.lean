import DotMatrix.Proofs.Machine.Interrupts

namespace DotMatrix

namespace Memory

variable {size : Nat}

-- At most one byte is another.
def SameBut (m : Memory size) (i : Nat) (after : Memory size) : Prop :=
  ∀ j (h : j < size), j ≠ i → after[j] = m[j]

theorem sameBut_set (m : Memory size) {i : Nat} (h : i < size) (v : UInt8) :
    m.SameBut i (m.set i v) := by
  intro j hj hn
  exact Vector.getElem_set_ne h hj hn.symm

theorem sameBut_write (m : Memory size) (offset : Nat) (v : UInt8) :
    m.SameBut (offset % size) (m.write offset v) := by
  by_cases hs : 0 < size
  case pos =>
    have hm := Nat.mod_lt offset hs
    rw [m.write_eq_set v hm]
    exact m.sameBut_set hm v
  case neg =>
    intro j hj
    omega

end Memory

namespace Cartridge

theorem writeRam_sameBut (c : Cartridge) (a : UInt16) (v : UInt8) :
    ∃ i ram, c.ram.SameBut i ram ∧ c.writeRam a v = { c with ram } := by
  rw [writeRam]
  split
  case h_1 offset _ => exact ⟨_, _, c.ram.sameBut_write offset v, rfl⟩
  case h_2          => exact ⟨0, c.ram, fun _ _ _ => rfl, rfl⟩

end Cartridge

namespace Ppu

-- The memories are not among the registers.
theorem write_memories (p : Ppu) (low v : UInt8) :
    (p.write low v).vram = p.vram ∧ (p.write low v).oam = p.oam := by
  rw [write]
  split
  case h_1 r _ =>
    cases r
    case lcdc =>
      rw [writeRegister, setLcdc]
      split <;> exact ⟨rfl, rfl⟩
    all_goals exact ⟨rfl, rfl⟩
  case h_2 => exact ⟨rfl, rfl⟩

end Ppu

theorem Joypad.select_kept (j : Joypad) (v : UInt8) :
    (j.select v).own &&& 0xcf = j.own &&& 0xcf := by
  apply UInt8.toBitVec_inj.mp
  simp [select, BitVec.and_or_distrib_right, BitVec.and_assoc]

namespace Board

-- The addresses that take no writes: those behind object memory, the gaps among the devices, and
-- the register of the current line.
def Ignores (a : UInt16) : Prop :=
  0xfea0 ≤ a.toNat ∧ a.toNat ≤ 0xfeff ∨ Region.InGap a ∨ a = 0xff44

-- What a board may be after a write, by the address that was written to.
structure Confined (b : Board) (a : UInt16) (after : Board) : Prop where
  mapper          : a.toNat ≤ 0x7fff → ∃ banks, after = { b with cartridge.banks := banks }
  vram            : 0x8000 ≤ a.toNat → a.toNat ≤ 0x9fff →
    ∃ vram, b.ppu.vram.SameBut (a.toNat - 0x8000) vram ∧ after = { b with ppu.vram := vram }
  cartridgeRam    : 0xa000 ≤ a.toNat → a.toNat ≤ 0xbfff →
    ∃ i ram, b.cartridge.ram.SameBut i ram ∧ after = { b with cartridge.ram := ram }
  workRam         : 0xc000 ≤ a.toNat → a.toNat ≤ 0xfdff →
    ∃ wram, b.wram.SameBut (a.toNat % 0x2000) wram ∧ after = { b with wram }
  oam             : 0xfe00 ≤ a.toNat → a.toNat ≤ 0xfe9f →
    ∃ oam, b.ppu.oam.SameBut (a.toNat - 0xfe00) oam ∧ after = { b with ppu.oam := oam }
  -- Only the bits that select a group of buttons
  joypad          : a = 0xff00 →
    ∃ own, own &&& 0xcf = b.joypad.own &&& 0xcf ∧ after = { b with joypad.own := own }
  -- The divider, and the ticks that were collected for it and for the counter
  div             : a = 0xff04 → ∃ div divElapsed timaElapsed, after = { b with
    timer.div               := div
    timer.divTicks.elapsed  := divElapsed
    timer.timaTicks.elapsed := timaElapsed }
  tima            : a = 0xff05 → ∃ tima, after = { b with timer.tima := tima }
  tma             : a = 0xff06 → ∃ tma, after = { b with timer.tma := tma }
  -- The ticks that were collected stay.
  tac             : a = 0xff07 → ∃ tac period, after = { b with
    timer.tac              := tac
    timer.timaTicks.period := period }
  interruptFlags  : a = 0xff0f → ∃ requested, after = { b with interrupts.requested := requested }
  sound           : 0xff10 ≤ a.toNat → a.toNat ≤ 0xff3f → ∃ apu, after = { b with apu }
  video           : 0xff40 ≤ a.toNat → a.toNat ≤ 0xff4b → a ≠ 0xff46 →
    ∃ ppu, ppu.vram = b.ppu.vram ∧ ppu.oam = b.ppu.oam ∧ after = { b with ppu }
  dma             : a = 0xff46 → ∃ page oam, after = { b with dmaPage := page, ppu.oam := oam }
  highRam         : 0xff80 ≤ a.toNat → a.toNat ≤ 0xfffe →
    ∃ hram, b.hram.SameBut (a.toNat - 0xff80) hram ∧ after = { b with hram }
  interruptEnable : a = 0xffff → ∃ enabled, after = { b with interrupts.enabled := enabled }
  ignored         : Ignores a → after = b
  -- No other write requests an interrupt or takes a request back.
  requests        : a ≠ 0xff0f → after.interrupts.requested = b.interrupts.requested

variable (b : Board) {a : UInt16} (v : UInt8)

theorem write_sound (hl : 0xff10 ≤ a.toNat) (hh : a.toNat ≤ 0xff3f) :
    b.write a v = { b with apu := b.apu.write (lowByte a) v } := by
  rw [write, Region.ofAddress_sound hl hh, Apu.write]
  cases Sound.Register.ofLow? (lowByte a) <;> rfl

theorem write_video (hl : 0xff40 ≤ a.toNat) (hh : a.toNat ≤ 0xff4b) (hn : a ≠ 0xff46) :
    b.write a v = { b with ppu := b.ppu.write (lowByte a) v } := by
  rw [write, Region.ofAddress_video hl hh hn, Ppu.write]
  cases Video.Register.ofLow? (lowByte a) <;> rfl

theorem write_ignored (h : Ignores a) : b.write a v = b := by
  obtain ⟨hl, hh⟩ | h | rfl := h
  · rw [write, Region.ofAddress_unusable hl (by omega)]
  · rw [write, Region.ofAddress_gap h]
  · rfl

theorem write_confined (b : Board) (a : UInt16) (v : UInt8) : b.Confined a (b.write a v) where
  mapper h := by
    rw [write, Region.ofAddress_rom (by omega)]
    exact ⟨_, rfl⟩
  vram hl hh := by
    rw [write, Region.ofAddress_vram hl (by omega)]
    have hi : a.toNat % 0x2000 = a.toNat - 0x8000 := by omega
    exact ⟨_, hi ▸ b.ppu.vram.sameBut_write a.toNat v, rfl⟩
  cartridgeRam hl hh := by
    obtain ⟨i, ram, hr, hw⟩ := b.cartridge.writeRam_sameBut a v
    rw [write, Region.ofAddress_cartridgeRam hl (by omega)]
    exact ⟨i, ram, hr, by rw [hw]⟩
  workRam hl hh := by
    rw [write, Region.ofAddress_workRam hl (by omega)]
    exact ⟨_, b.wram.sameBut_write a.toNat v, rfl⟩
  oam hl hh := by
    rw [write, Region.ofAddress_oam hl (by omega)]
    exact ⟨_, b.ppu.oam.sameBut_set _ v, rfl⟩
  joypad h := by
    subst h
    exact ⟨_, b.joypad.select_kept v, rfl⟩
  div h := by
    subst h
    exact ⟨_, _, _, rfl⟩
  tima h := by
    subst h
    exact ⟨_, rfl⟩
  tma h := by
    subst h
    exact ⟨_, rfl⟩
  tac h := by
    subst h
    exact ⟨_, _, rfl⟩
  interruptFlags h := by
    subst h
    exact ⟨_, rfl⟩
  sound hl hh := ⟨_, b.write_sound v hl hh⟩
  video hl hh hn :=
    have ⟨hv, ho⟩ := b.ppu.write_memories (lowByte a) v
    ⟨_, hv, ho, b.write_video v hl hh hn⟩
  dma h := by
    subst h
    exact b.startDma_eq v
  highRam hl hh := by
    rw [write, Region.ofAddress_highRam hl (by omega)]
    exact ⟨_, b.hram.sameBut_set _ v, rfl⟩
  interruptEnable h := by
    subst h
    exact ⟨_, rfl⟩
  ignored h  := b.write_ignored v h
  requests h := b.write_requested v h

end Board
end DotMatrix
