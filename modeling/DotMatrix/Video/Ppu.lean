import DotMatrix.Bits
import DotMatrix.Counter
import DotMatrix.Memory
import DotMatrix.Video.Mode

namespace DotMatrix.Video

-- The registers, by the low byte of their address.
inductive Register
  | lcdc
  | stat
  | scy
  | scx
  | ly
  | lyc
  | bgp
  | obp0
  | obp1
  | wy
  | wx
  deriving Repr, DecidableEq

def Register.ofLow? : UInt8 → Option Register
  | 0x40 => some lcdc
  | 0x41 => some stat
  | 0x42 => some scy
  | 0x43 => some scx
  | 0x44 => some ly
  | 0x45 => some lyc
  | 0x47 => some bgp
  | 0x48 => some obp0
  | 0x49 => some obp1
  | 0x4a => some wy
  | 0x4b => some wx
  | _    => none

end Video

open Video

structure Ppu where
  vram : Memory 0x2000 := .zeros _
  oam  : Memory 0xa0 := .zeros _
  lcdc : UInt8 := 0x91
  -- The interrupt sources that are switched on, as bits of the status register.
  stat : UInt8 := 0
  scy  : UInt8 := 0
  scx  : UInt8 := 0
  ly   : UInt8 := 0
  lyc  : UInt8 := 0
  bgp  : UInt8 := 0xfc
  obp0 : UInt8 := 0xff
  obp1 : UInt8 := 0xff
  wy   : UInt8 := 0
  wx   : UInt8 := 0
  -- Lines of the window drawn so far in this frame.
  wly  : UInt8 := 0
  mode : Mode := .oamScan
  dots : Counter := .ofPeriod (Mode.dots .oamScan)

namespace Ppu

-- The state in which the machine's boot program leaves the unit.
def postBoot : Ppu := {}

instance : Inhabited Ppu := ⟨postBoot⟩

variable (p : Ppu)

def bgEnabled : Bool := testBit p.lcdc 0

def objectsEnabled : Bool := testBit p.lcdc 1

def tallObjects : Bool := testBit p.lcdc 2

def bgMapHigh : Bool := testBit p.lcdc 3

def unsignedTiles : Bool := testBit p.lcdc 4

def windowEnabled : Bool := testBit p.lcdc 5

def windowMapHigh : Bool := testBit p.lcdc 6

def lcdEnabled : Bool := testBit p.lcdc 7

-- Bit 7 reads as one, bit 2 tells whether the line is the one compared with.
def status : UInt8 := 0x80 ||| p.stat ||| bitIf (p.ly == p.lyc) 2 ||| p.mode.number

def readRegister : Video.Register → UInt8
  | .lcdc => p.lcdc
  | .stat => p.status
  | .scy  => p.scy
  | .scx  => p.scx
  | .ly   => p.ly
  | .lyc  => p.lyc
  | .bgp  => p.bgp
  | .obp0 => p.obp0
  | .obp1 => p.obp1
  | .wy   => p.wy
  | .wx   => p.wx

-- Switching the screen off stops the schedule at its first line, and switching it on starts the
-- schedule there.
def setLcdc (v : UInt8) : Ppu :=
  let q := { p with lcdc := v }
  match p.lcdEnabled, q.lcdEnabled with
  | true, false => { q with ly := 0, wly := 0, mode := .hblank, dots := .ofPeriod 0 }
  | false, true => { q with mode := .oamScan, dots := .ofPeriod (Mode.dots .oamScan) }
  | _, _        => q

-- The status bits that can be written, one for each interrupt source.
def statSources : UInt8 := 0x78

-- The current line is read-only.
def writeRegister (r : Video.Register) (v : UInt8) : Ppu :=
  match r with
  | .lcdc => p.setLcdc v
  | .stat => { p with stat := v &&& statSources }
  | .scy  => { p with scy := v }
  | .scx  => { p with scx := v }
  | .ly   => p
  | .lyc  => { p with lyc := v }
  | .bgp  => { p with bgp := v }
  | .obp0 => { p with obp0 := v }
  | .obp1 => { p with obp1 := v }
  | .wy   => { p with wy := v }
  | .wx   => { p with wx := v }

-- Reads a register by the low byte of its address.
def read (low : UInt8) : UInt8 :=
  match Video.Register.ofLow? low with
  | some r => p.readRegister r
  | none   => Memory.openBus

-- Writes a register by the low byte of its address.
def write (low v : UInt8) : Ppu :=
  match Video.Register.ofLow? low with
  | some r => p.writeRegister r v
  | none   => p

def readVram (a : UInt16) : UInt8 := p.vram.read a.toNat

def writeVram (a : UInt16) (v : UInt8) : Ppu := { p with vram := p.vram.write a.toNat v }

def readOam (i : Fin 0xa0) : UInt8 := p.oam.get i

def writeOam (i : Fin 0xa0) (v : UInt8) : Ppu := { p with oam := p.oam.set i v }

end Ppu
end DotMatrix
