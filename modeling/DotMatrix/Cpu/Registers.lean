import DotMatrix.Cpu.Flags

namespace DotMatrix

-- The byte registers that instructions name. The flags are not among them.
inductive Register
  | b
  | c
  | d
  | e
  | h
  | l
  | a
  deriving Repr, DecidableEq

-- The word registers that instructions name. Most are two byte registers, the high byte first.
inductive Pair
  | bc
  | de
  | hl
  | sp
  | af
  deriving Repr, DecidableEq

structure Cpu where
  a      : UInt8
  flags  : Flags
  b      : UInt8
  c      : UInt8
  d      : UInt8
  e      : UInt8
  h      : UInt8
  l      : UInt8
  sp     : UInt16
  pc     : UInt16
  -- Interrupts are served only while this is set.
  ime    : Bool
  halted : Bool
  deriving Repr, DecidableEq

namespace Cpu

-- The state in which the machine's boot program hands over to the cartridge.
def postBoot : Cpu where
  a      := 0x11
  flags  := { zero := true }
  b      := 0
  c      := 0
  d      := 0xff
  e      := 0x56
  h      := 0
  l      := 0
  sp     := 0xfffe
  pc     := 0x0100
  ime    := false
  halted := false

instance : Inhabited Cpu := ⟨postBoot⟩

def get (cpu : Cpu) : Register → UInt8
  | .b => cpu.b
  | .c => cpu.c
  | .d => cpu.d
  | .e => cpu.e
  | .h => cpu.h
  | .l => cpu.l
  | .a => cpu.a

def set (cpu : Cpu) (r : Register) (v : UInt8) : Cpu :=
  match r with
  | .b => { cpu with b := v }
  | .c => { cpu with c := v }
  | .d => { cpu with d := v }
  | .e => { cpu with e := v }
  | .h => { cpu with h := v }
  | .l => { cpu with l := v }
  | .a => { cpu with a := v }

def getPair (cpu : Cpu) : Pair → UInt16
  | .bc => word cpu.c cpu.b
  | .de => word cpu.e cpu.d
  | .hl => word cpu.l cpu.h
  | .sp => cpu.sp
  | .af => word cpu.flags.toByte cpu.a

-- The flags keep only the high nibble of what is put into AF.
def setPair (cpu : Cpu) (rr : Pair) (v : UInt16) : Cpu :=
  match rr with
  | .bc => { cpu with b := highByte v, c := lowByte v }
  | .de => { cpu with d := highByte v, e := lowByte v }
  | .hl => { cpu with h := highByte v, l := lowByte v }
  | .sp => { cpu with sp := v }
  | .af => { cpu with a := highByte v, flags := .ofByte (lowByte v) }

def hl (cpu : Cpu) : UInt16 := cpu.getPair .hl

end Cpu
end DotMatrix
