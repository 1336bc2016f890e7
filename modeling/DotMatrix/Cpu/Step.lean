import DotMatrix.Cpu.Decode
import DotMatrix.Cpu.Execute
import DotMatrix.Text.Hex

namespace DotMatrix

structure IllegalInstruction where
  opcode : UInt8
  pc     : UInt16
  deriving Repr, DecidableEq

open Text in
def IllegalInstruction.message (e : IllegalInstruction) : String :=
  s!"Illegal instruction 0x{hexPadded 2 e.opcode.toNat} at 0x{hexPadded 4 e.pc.toNat}"

namespace Core

variable {β : Type} [Bus β]

-- Ticks taken to serve an interrupt.
def dispatchCost : Nat := 20

-- Ticks that pass per step in the halted state.
def haltCost : Nat := 4

-- The routine that serves an interrupt line.
def vector (line : Fin 5) : UInt16 := 0x40 + 8 * .ofNat line

-- Wakes a halted processor if an interrupt is pending, and serves the interrupt if that is
-- allowed. Tells whether it was served.
@[specialize]
def dispatch (s : Core β) : Bool × Core β :=
  if Bus.pending s.bus then
    let s := s.mapCpu fun cpu => { cpu with halted := false }
    if s.cpu.ime then
      match Bus.acknowledge s.bus with
      | (some line, bus) =>
        let s : Core β := { s with bus }
        (true, (s.mapCpu fun cpu => { cpu with ime := false }).callTo (vector line))
      | (none, bus) => (false, { s with bus })
    else
      (false, s)
  else
    (false, s)

-- Fetches, decodes and executes the next instruction. An opcode without a meaning stops at its own
-- address.
@[specialize]
def executeNext (s : Core β) : Except IllegalInstruction Nat × Core β :=
  let pc := s.cpu.pc
  let (opcode, s) := s.fetch
  if opcode = Instruction.secondTable then
    let (opcode, s) := s.fetch
    let i := Instruction.decodeSecond opcode
    (.ok (i.cost s.cpu.flags), s.execute i)
  else
    match Instruction.decode opcode with
    | some i => (.ok (i.cost s.cpu.flags), s.execute i)
    | none   => (.error { opcode, pc }, s.jumpTo pc)

-- One step, with the ticks it took: an interrupt is served, or time passes in the halted state, or
-- the next instruction is executed.
@[specialize]
def step (s : Core β) : Except IllegalInstruction Nat × Core β :=
  match s.dispatch with
  | (true, s)  => (.ok dispatchCost, s)
  | (false, s) => if s.cpu.halted then (.ok haltCost, s) else s.executeNext

theorem executeNext_cost_pos {s t : Core β} {ticks : Nat} (h : s.executeNext = (.ok ticks, t)) :
    0 < ticks := by
  simp only [executeNext] at h
  split at h
  · cases h
    exact Instruction.cost_pos _ _
  · split at h
    · cases h
      exact Instruction.cost_pos _ _
    · cases h

theorem step_cost_pos {s t : Core β} {ticks : Nat} (h : s.step = (.ok ticks, t)) : 0 < ticks := by
  simp only [step] at h
  split at h
  · cases h
    decide
  · split at h
    · cases h
      decide
    · exact executeNext_cost_pos h

end Core
end DotMatrix
