import DotMatrix.Cartridge.Basic
import DotMatrix.Cpu.Bus
import DotMatrix.Interrupt
import DotMatrix.Joypad
import DotMatrix.Machine.Region
import DotMatrix.Timer

namespace DotMatrix

-- Everything that the processor reaches through its bus.
structure Board where
  cartridge  : Cartridge
  apu        : Apu
  ppu        : Ppu := .postBoot
  timer      : Timer := {}
  joypad     : Joypad := {}
  interrupts : Interrupts := {}
  wram       : Memory 0x2000 := .zeros _
  hram       : Memory 0x7f := .zeros _
  -- The page that object memory was last copied from.
  dmaPage    : UInt8 := 0xff

namespace Board

variable (b : Board)

def read (a : UInt16) : UInt8 :=
  match Region.ofAddress a with
  | .rom             => b.cartridge.readRom a
  | .vram            => b.ppu.readVram a
  | .cartridgeRam    => b.cartridge.readRam a
  | .workRam         => b.wram.read a.toNat
  | .oam i           => b.ppu.readOam i
  | .unusable        =>
    match b.ppu.mode with
    | .oamScan | .transfer => Memory.openBus
    | .hblank | .vblank    => 0
  | .joypad          => b.joypad.read
  | .div             => b.timer.div
  | .tima            => b.timer.tima
  | .tma             => b.timer.tma
  | .tac             => b.timer.control
  | .interruptFlags  => b.interrupts.flags
  | .sound r         => b.apu.readRegister r
  | .video r         => b.ppu.readRegister r
  | .dma             => b.dmaPage
  | .unmapped        => Memory.openBus
  | .highRam i       => b.hram.get i
  | .interruptEnable => b.interrupts.enabled

-- The block that is copied to object memory from a page. Pages behind the second view of work RAM
-- hold work RAM as well.
def dmaBlock? (page : UInt8) : Option (Array UInt8) :=
  let a := page.toUInt16 <<< 8
  if page < 0x80 then b.cartridge.romBlock? a 0xa0
  else if page < 0xa0 then b.ppu.vram.block? a.toNat 0xa0
  else if page < 0xc0 then b.cartridge.ramBlock? a 0xa0
  else b.wram.block? a.toNat 0xa0

-- The block as new contents of object memory.
def dmaOam? (page : UInt8) : Option (Memory 0xa0) :=
  (b.dmaBlock? page).bind fun block =>
    if h : block.size = 0xa0 then some ⟨block, h⟩ else none

-- Copies a page to object memory at once.
def startDma (page : UInt8) : Board :=
  match b.dmaOam? page with
  | some oam => { b with dmaPage := page, ppu.oam := oam }
  | none     => b

def write (a : UInt16) (v : UInt8) : Board :=
  match Region.ofAddress a with
  | .rom             => { b with cartridge := b.cartridge.writeRom a v }
  | .vram            => { b with ppu := b.ppu.writeVram a v }
  | .cartridgeRam    => { b with cartridge := b.cartridge.writeRam a v }
  | .workRam         => { b with wram := b.wram.write a.toNat v }
  | .oam i           => { b with ppu := b.ppu.writeOam i v }
  | .joypad          => { b with joypad := b.joypad.select v }
  | .div             => { b with timer := b.timer.resetDiv }
  | .tima            => { b with timer := b.timer.setTima v }
  | .tma             => { b with timer := b.timer.setTma v }
  | .tac             => { b with timer := b.timer.setControl v }
  | .interruptFlags  => { b with interrupts := b.interrupts.setFlags v }
  | .sound r         => { b with apu := b.apu.writeRegister r v }
  | .video r         => { b with ppu := b.ppu.writeRegister r v }
  | .dma             => b.startDma v
  | .highRam i       => { b with hram := b.hram.set i v }
  | .interruptEnable => { b with interrupts.enabled := v }
  | .unusable        => b
  | .unmapped        => b

-- Replaces the held buttons. A newly pressed one requests an interrupt.
def hold (directions actions : UInt8) : Board :=
  let (pressed, joypad) := b.joypad.hold directions actions
  { b with joypad, interrupts := b.interrupts.requestIf pressed .joypad }

instance : Bus Board where
  read b a  := (b.read a, b)
  write     := write
  pending b := b.interrupts.pending
  acknowledge b :=
    let (line, interrupts) := b.interrupts.acknowledge
    (line, { b with interrupts })

end Board
end DotMatrix
