import DotMatrix.Cpu.Registers

namespace DotMatrix

-- Memory and devices behind one address space, and the interrupt lines. A bus may change when it is
-- read.
class Bus (β : Type) where
  read : β → UInt16 → UInt8 × β
  write : β → UInt16 → UInt8 → β
  -- Some enabled interrupt is requested.
  pending : β → Bool
  -- Takes the first of the enabled and requested interrupts off its latch.
  acknowledge : β → Option (Fin 5) × β

-- A processor on its bus.
structure Core (β : Type) where
  cpu : Cpu
  bus : β

namespace Core

variable {β : Type} [Bus β]

@[inline] def read (s : Core β) (a : UInt16) : UInt8 × Core β :=
  let (v, bus) := Bus.read s.bus a
  (v, { s with bus })

@[inline] def write (s : Core β) (a : UInt16) (v : UInt8) : Core β :=
  { s with bus := Bus.write s.bus a v }

-- Words lie in memory with the low byte first, and that byte is read and written first.
@[inline] def readWord (s : Core β) (a : UInt16) : UInt16 × Core β :=
  let (low, s) := s.read a
  let (high, s) := s.read (a + 1)
  (word low high, s)

@[inline] def writeWord (s : Core β) (a v : UInt16) : Core β :=
  (s.write a (lowByte v)).write (a + 1) (highByte v)

-- Changes the registers alone.
@[inline] def mapCpu (s : Core β) (f : Cpu → Cpu) : Core β := { s with cpu := f s.cpu }

-- The next byte of the program.
@[inline] def fetch (s : Core β) : UInt8 × Core β :=
  let (v, s) := s.read s.cpu.pc
  (v, s.mapCpu fun cpu => { cpu with pc := cpu.pc + 1 })

-- The next word of the program.
@[inline] def fetchWord (s : Core β) : UInt16 × Core β :=
  let (v, s) := s.readWord s.cpu.pc
  (v, s.mapCpu fun cpu => { cpu with pc := cpu.pc + 2 })

-- The stack grows downwards, and SP points at the word pushed last.
@[inline] def push (s : Core β) (v : UInt16) : Core β :=
  let s := s.mapCpu fun cpu => { cpu with sp := cpu.sp - 2 }
  s.writeWord s.cpu.sp v

@[inline] def pop (s : Core β) : UInt16 × Core β :=
  let (v, s) := s.readWord s.cpu.sp
  (v, s.mapCpu fun cpu => { cpu with sp := cpu.sp + 2 })

@[inline] def jumpTo (s : Core β) (a : UInt16) : Core β := s.mapCpu fun cpu => { cpu with pc := a }

-- Jumps to a routine and leaves the way back on the stack.
@[inline] def callTo (s : Core β) (a : UInt16) : Core β := (s.push s.cpu.pc).jumpTo a

end Core
end DotMatrix
