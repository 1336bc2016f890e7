import DotMatrix.Sound.Config
import DotMatrix.Sound.Noise
import DotMatrix.Sound.Pulse
import DotMatrix.Sound.Wave

namespace DotMatrix

namespace Sound

-- The registers, by the low byte of their address.
inductive Register
  | nr10
  | nr11
  | nr12
  | nr13
  | nr14
  | nr21
  | nr22
  | nr23
  | nr24
  | nr30
  | nr31
  | nr32
  | nr33
  | nr34
  | nr41
  | nr42
  | nr43
  | nr44
  | nr50
  | nr51
  | nr52
  | wave (i : Fin 16)
  deriving Repr, DecidableEq

def Register.ofLow? : UInt8 → Option Register
  | 0x10 => some nr10
  | 0x11 => some nr11
  | 0x12 => some nr12
  | 0x13 => some nr13
  | 0x14 => some nr14
  | 0x16 => some nr21
  | 0x17 => some nr22
  | 0x18 => some nr23
  | 0x19 => some nr24
  | 0x1a => some nr30
  | 0x1b => some nr31
  | 0x1c => some nr32
  | 0x1d => some nr33
  | 0x1e => some nr34
  | 0x20 => some nr41
  | 0x21 => some nr42
  | 0x22 => some nr43
  | 0x23 => some nr44
  | 0x24 => some nr50
  | 0x25 => some nr51
  | 0x26 => some nr52
  | low  => if low >>> 4 = 3 then some (wave (.ofNat 16 low.toNat)) else none

-- One stereo frame of sound.
structure Frame where
  left  : Float32
  right : Float32
  deriving Inhabited

end Sound

open Sound

structure Apu where
  config      : Config
  nr50        : UInt8 := 0x77
  nr51        : UInt8 := 0xf3
  ch1         : SweptPulse := {}
  ch2         : Pulse := {}
  ch3         : Wave := {}
  ch4         : Noise := {}
  enabled     : Bool := true
  sampleTicks : Counter := .ofPeriod config.samplePeriod
  -- Frames that wait for the buffer to fill.
  buffer      : Array Frame := #[]

namespace Apu

-- The state in which the machine's boot program leaves the unit.
def postBoot (config : Config) : Apu := { config }

instance : Inhabited Apu := ⟨postBoot {}⟩

variable (s : Apu)

-- The master register: which channels sound, and whether the unit is on.
def status : UInt8 :=
  0x70 ||| bitIf s.enabled 7 ||| bitIf s.ch4.enabled 3 ||| bitIf s.ch3.enabled 2 |||
    bitIf s.ch2.enabled 1 ||| bitIf s.ch1.pulse.enabled 0

-- Bits that cannot be read are ones.
def readRegister : Sound.Register → UInt8
  | .nr10 => s.ch1.sweep.nr10 ||| 0x80
  | .nr11 => s.ch1.pulse.nrx1 ||| 0x3f
  | .nr12 => s.ch1.pulse.nrx2
  | .nr14 => Control.shown s.ch1.pulse.nrx4
  | .nr21 => s.ch2.nrx1 ||| 0x3f
  | .nr22 => s.ch2.nrx2
  | .nr24 => Control.shown s.ch2.nrx4
  | .nr30 => s.ch3.nr30 ||| 0x7f
  | .nr32 => s.ch3.nr32 ||| 0x9f
  | .nr34 => Control.shown s.ch3.nr34
  | .nr42 => s.ch4.nr42
  | .nr43 => s.ch4.nr43
  | .nr44 => Control.shown s.ch4.nr44
  | .nr50 => s.nr50
  | .nr51 => s.nr51
  | .nr52 => s.status
  | .wave i => s.ch3.ram.get i
  | .nr13 | .nr23 | .nr31 | .nr33 | .nr41 => 0xff

-- Clears all registers and channels, but for the wave memory.
def powerOff : Apu :=
  { s with nr50 := 0, nr51 := 0, ch1 := {}, ch2 := {}, ch3 := s.ch3.powerOff, ch4 := {} }

-- The master switch.
def setPower (on : Bool) : Apu :=
  let s := if s.enabled && !on then s.powerOff else s
  { s with enabled := on }

-- Writes a register of the unit while it is on.
def writePowered (r : Sound.Register) (v : UInt8) : Apu :=
  match r with
  | .nr10 => { s with ch1 := s.ch1.setSweep v }
  | .nr11 => { s with ch1.pulse := s.ch1.pulse.setDuty v }
  | .nr12 => { s with ch1.pulse := s.ch1.pulse.setVolume v }
  | .nr13 => { s with ch1.pulse := s.ch1.pulse.setLow v }
  | .nr14 => { s with ch1 := s.ch1.setControl v }
  | .nr21 => { s with ch2 := s.ch2.setDuty v }
  | .nr22 => { s with ch2 := s.ch2.setVolume v }
  | .nr23 => { s with ch2 := s.ch2.setLow v }
  | .nr24 => { s with ch2 := s.ch2.setControl v }
  | .nr30 => { s with ch3 := s.ch3.setConverter v }
  | .nr31 => { s with ch3 := s.ch3.setLength v }
  | .nr32 => { s with ch3 := s.ch3.setLevel v }
  | .nr33 => { s with ch3 := s.ch3.setLow v }
  | .nr34 => { s with ch3 := s.ch3.setControl v }
  | .nr41 => { s with ch4 := s.ch4.setLength v }
  | .nr42 => { s with ch4 := s.ch4.setVolume v }
  | .nr43 => { s with ch4 := s.ch4.setClock v }
  | .nr44 => { s with ch4 := s.ch4.setControl v }
  | .nr50 => { s with nr50 := v }
  | .nr51 => { s with nr51 := v }
  | .nr52 => s
  | .wave _ => s

-- Without power only the master switch and the wave memory can be written.
def writeRegister (r : Sound.Register) (v : UInt8) : Apu :=
  match r with
  | .nr52   => s.setPower (testBit v 7)
  | .wave i => { s with ch3.ram := s.ch3.ram.set i v }
  | r       => if s.enabled then s.writePowered r v else s

-- Reads a register by the low byte of its address.
def read (low : UInt8) : UInt8 :=
  match Sound.Register.ofLow? low with
  | some r => s.readRegister r
  | none   => Memory.openBus

-- Writes a register by the low byte of its address.
def write (low v : UInt8) : Apu :=
  match Sound.Register.ofLow? low with
  | some r => s.writeRegister r v
  | none   => s

end Apu
end DotMatrix
