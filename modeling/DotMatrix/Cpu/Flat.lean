import DotMatrix.Cpu.Bus
import DotMatrix.Interrupt
import DotMatrix.Memory

namespace DotMatrix

-- The plainest bus: memory, two bytes of which hold the interrupt latches.
structure Flat where
  bytes : Memory 0x10000 := .zeros _

namespace Flat

def enabledAddress : UInt16 := 0xffff

def requestedAddress : UInt16 := 0xff0f

def get (m : Flat) (a : UInt16) : UInt8 := m.bytes.read a.toNat

def set (m : Flat) (a : UInt16) (v : UInt8) : Flat := { bytes := m.bytes.write a.toNat v }

def interrupts (m : Flat) : Interrupts where
  enabled   := m.get enabledAddress
  requested := m.get requestedAddress

instance : Bus Flat where
  read m a := (m.get a, m)
  write    := set
  pending m := m.interrupts.pending
  acknowledge m :=
    let (line, latches) := m.interrupts.acknowledge
    (line, m.set requestedAddress latches.requested)

end Flat
end DotMatrix
