import DotMatrix.Cpu.Bus

namespace DotMatrix

-- A bus that behaves as the one inside it and keeps a record of its traffic.
structure Recorder (β : Type) where
  bus    : β
  -- The number of bytes read.
  reads  : Nat := 0
  -- The bytes written, in order.
  writes : Array (UInt16 × UInt8) := #[]

namespace Recorder

variable {β : Type}

-- The number of bytes read or written.
def traffic (r : Recorder β) : Nat := r.reads + r.writes.size

instance [Bus β] : Bus (Recorder β) where
  read r a :=
    let (v, bus) := Bus.read r.bus a
    (v, { r with bus, reads := r.reads + 1 })
  write r a v := { r with bus := Bus.write r.bus a v, writes := r.writes.push (a, v) }
  pending r := Bus.pending r.bus
  acknowledge r :=
    let (line, bus) := Bus.acknowledge r.bus
    (line, { r with bus })

end Recorder
end DotMatrix
