import DotMatrix.Proofs.Cpu.Code
import DotMatrix.Proofs.Cpu.Cost
import DotMatrix.Proofs.Cpu.Record

namespace DotMatrix

-- The bytes after the opcode that tell the address.
def Address.bytes : Address → Nat
  | imm     => 2
  | pageImm => 1
  | _       => 0

namespace Instruction

-- The bytes that are read once the opcode is: those after the opcode come first, and then memory.
def reads (f : Flags) : Instruction → Nat
  | load _ src | alu _ src                          => src.cost 0 1
  | loadA a                                         => a.bytes + 1
  | storeA a                                        => a.bytes
  | inc p | dec p | shift _ p | bit _ p             => p.cost 0 1
  | res _ p | set _ p                               => p.cost 0 1
  | offsetToHl | offsetToSp | jumpRelative _ | stop => 1
  | loadPair _ | storeSp | jump _ | call _          => 2
  | pop _ | reti                                    => 2
  | ret cond                                        => if Condition.taken f cond then 2 else 0
  | _                                               => 0

def writes (f : Flags) : Instruction → Nat
  | load dst _                                    => dst.cost 0 1
  | storeA _                                      => 1
  | inc p | dec p | shift _ p | res _ p | set _ p => p.cost 0 1
  | storeSp | push _ | rst _                      => 2
  | call cond                                     => if Condition.taken f cond then 2 else 0
  | _                                             => 0

theorem writes_le (f : Flags) (i : Instruction) : i.writes f ≤ 2 := by
  cases i
  case load p src | inc p | dec p | shift op p | res k p | set k p =>
    exact Place.cost_of (P := (· ≤ 2)) (by decide) (by decide)
  case call cond =>
    simp only [writes]
    split <;> decide
  all_goals simp [writes]

-- Two bytes are read to stop, which takes four ticks only. No opcode loads the byte that HL points at
-- into its own place.
theorem traffic_le_cost (f : Flags) {i : Instruction} (hs : i ≠ stop)
    (hl : i ≠ load .memHl (.place .memHl)) :
    4 * (i.opcodeBytes + i.reads f + i.writes f) ≤ i.cost f := by
  cases i
  case stop => contradiction
  case load dst src =>
    rcases dst with _ | _ <;> rcases src with (_ | _) | _
    case memHl.place.memHl => contradiction
    all_goals simp [opcodeBytes, reads, writes, cost, Place.cost, Operand.cost]
  case alu op src =>
    rcases src with (_ | _) | _ <;>
      simp [opcodeBytes, reads, writes, cost, Place.cost, Operand.cost]
  case loadA a | storeA a =>
    cases a <;> simp [opcodeBytes, reads, writes, cost, Address.cost, Address.bytes]
  case inc p | dec p | shift op p | bit k p | res k p | set k p =>
    cases p <;> simp [opcodeBytes, reads, writes, cost, Place.cost]
  case jump cond | jumpRelative cond | call cond =>
    simp only [opcodeBytes, reads, writes, cost]
    split <;> decide
  case ret cond =>
    cases cond
    case none => simp [opcodeBytes, reads, writes, cost, Condition.taken]
    case some cond =>
      have ht : Condition.taken f (some cond) = cond.holds f := rfl
      simp only [opcodeBytes, reads, writes, cost, ht]
      split <;> decide
  all_goals simp [opcodeBytes, reads, writes, cost]

theorem decode_ne_load_memHl (opcode : UInt8) :
    decode opcode ≠ some (load .memHl (.place .memHl)) := by
  revert opcode
  decide +kernel

end Instruction

-- So many bytes have been read and written from one record to another.
structure Recorder.Traffic {β : Type} (b c : Recorder β) (reads writes : Nat) : Prop where
  reads  : c.reads = b.reads + reads
  writes : c.writes.size = b.writes.size + writes

namespace Recorder.Traffic

variable {β : Type} {b c d : Recorder β} {m n k l : Nat}

theorem refl (b : Recorder β) : b.Traffic b 0 0 := ⟨rfl, rfl⟩

theorem trans (h : b.Traffic c m n) (h' : c.Traffic d k l) : b.Traffic d (m + k) (n + l) where
  reads  := by rw [h'.reads, h.reads, Nat.add_assoc]
  writes := by rw [h'.writes, h.writes, Nat.add_assoc]

-- First bytes are read, and then others are written.
theorem then_write (h : b.Traffic c m 0) (h' : c.Traffic d 0 l) : b.Traffic d m l :=
  Nat.zero_add l ▸ h.trans h'

end Recorder.Traffic

namespace Core

variable {β : Type} [Bus β] (s : Core (Recorder β))

theorem traffic_read (a : UInt16) : s.bus.Traffic (s.read a).2.bus 1 0 := ⟨rfl, rfl⟩

theorem traffic_write (a : UInt16) (v : UInt8) : s.bus.Traffic (s.write a v).bus 0 1 :=
  ⟨rfl, Array.size_push ..⟩

theorem traffic_readWord (a : UInt16) : s.bus.Traffic (s.readWord a).2.bus 2 0 :=
  (s.traffic_read a).trans (traffic_read ..)

theorem traffic_writeWord (a v : UInt16) : s.bus.Traffic (s.writeWord a v).bus 0 2 :=
  (s.traffic_write a _).trans (traffic_write ..)

theorem traffic_fetch : s.bus.Traffic s.fetch.2.bus 1 0 := s.traffic_read _

theorem traffic_fetchWord : s.bus.Traffic s.fetchWord.2.bus 2 0 := s.traffic_readWord _

theorem traffic_push (v : UInt16) : s.bus.Traffic (s.push v).bus 0 2 :=
  s.traffic_writeWord (s.cpu.sp - 2) v

theorem traffic_pop : s.bus.Traffic s.pop.2.bus 2 0 := s.traffic_readWord _

theorem traffic_callTo (a : UInt16) : s.bus.Traffic (s.callTo a).bus 0 2 := s.traffic_push _

theorem traffic_readPlace (p : Place) : s.bus.Traffic (s.readPlace p).2.bus (p.cost 0 1) 0 := by
  cases p
  case reg   => exact .refl _
  case memHl => exact s.traffic_read _

theorem traffic_writePlace (p : Place) (v : UInt8) :
    s.bus.Traffic (s.writePlace p v).bus 0 (p.cost 0 1) := by
  cases p
  case reg   => exact .refl _
  case memHl => exact s.traffic_write _ v

theorem traffic_readOperand (src : Operand) :
    s.bus.Traffic (s.readOperand src).2.bus (src.cost 0 1) 0 := by
  cases src
  case place p => exact s.traffic_readPlace p
  case imm     => exact s.traffic_fetch

theorem traffic_resolve (a : Address) : s.bus.Traffic (s.resolve a).2.bus a.bytes 0 := by
  cases a
  case imm     => exact s.traffic_fetchWord
  case pageImm => exact s.traffic_fetch
  all_goals exact .refl _

theorem traffic_update (p : Place) (f : UInt8 → Flags → UInt8 × Flags) :
    s.bus.Traffic (s.update p f).bus (p.cost 0 1) (p.cost 0 1) :=
  (s.traffic_readPlace p).then_write (traffic_writePlace ..)

theorem traffic_execute (i : Instruction) :
    s.bus.Traffic (s.execute i).bus (i.reads s.cpu.flags) (i.writes s.cpu.flags) := by
  cases i
  case load dst src => exact (s.traffic_readOperand src).then_write (traffic_writePlace ..)
  case loadA a      => exact (s.traffic_resolve a).trans (traffic_read ..)
  case storeA a     => exact (s.traffic_resolve a).trans (traffic_write ..)
  case loadPair     => exact s.traffic_fetchWord
  case storeSp      => exact s.traffic_fetchWord.trans (traffic_writeWord ..)
  case push         => exact s.traffic_push _
  case pop | reti   => exact s.traffic_pop
  case alu op src   => exact s.traffic_readOperand src
  case bit k p      => exact s.traffic_readPlace p
  case rst          => exact s.traffic_callTo _
  case inc p | dec p | shift op p => exact s.traffic_update p _
  case res k p | set k p => exact (s.traffic_readPlace p).then_write (traffic_writePlace ..)
  case offsetToHl | offsetToSp | stop => exact s.traffic_fetch
  case jump cond =>
    simp only [execute]
    split <;> exact s.traffic_fetchWord
  case jumpRelative cond =>
    simp only [execute]
    split <;> exact s.traffic_fetch
  case call cond =>
    have hf : s.fetchWord.2.cpu.flags = s.cpu.flags := rfl
    simp only [execute, Instruction.reads, Instruction.writes, hf]
    split
    case isTrue  => exact s.traffic_fetchWord.trans (traffic_callTo ..)
    case isFalse => exact s.traffic_fetchWord
  case ret cond =>
    simp only [execute, Instruction.reads, Instruction.writes]
    split
    case isTrue  => exact s.traffic_pop
    case isFalse => exact .refl _
  -- The others work on registers alone.
  all_goals exact .refl _

theorem traffic_fetches (n : Nat) : s.bus.Traffic (s.fetches n).bus n 0 := by
  induction n generalizing s with
  | zero => exact .refl _
  | succ n ih =>
    have h := s.traffic_fetch.trans (ih s.fetch.2)
    rwa [Nat.add_comm 1 n] at h

theorem traffic_acknowledge {line : Option (Fin 5)} {bus : Recorder β}
    (h : Bus.acknowledge s.bus = (line, bus)) : s.bus.Traffic bus 0 0 := by
  obtain rfl := congrArg Prod.snd h
  exact ⟨rfl, rfl⟩

-- The way back goes onto the stack of a processor that serves an interrupt.
theorem traffic_dispatch :
    s.bus.Traffic s.dispatch.2.bus 0 (if s.dispatch.1 then 2 else 0) := by
  simp only [dispatch]
  split
  case isFalse => exact .refl _
  case isTrue =>
    split
    case isFalse => exact .refl _
    case isTrue =>
      split
      case h_1 line bus ha =>
        have hc : ∀ cpu, bus.Traffic (callTo { cpu, bus } (vector line)).bus 0 2 :=
          fun cpu => traffic_callTo { cpu, bus } _
        exact (s.traffic_acknowledge ha).trans (hc _)
      case h_2 ha => exact s.traffic_acknowledge ha

theorem fetched?_ne_load_memHl : s.fetched? ≠ some (.load .memHl (.place .memHl)) := by
  intro h
  simp only [fetched?] at h
  split at h
  case isTrue =>
    have hb := Instruction.opcodeBytes_decodeSecond s.fetch.2.fetch.1
    rw [Option.some.inj h] at hb
    contradiction
  case isFalse => exact Instruction.decode_ne_load_memHl _ h

theorem traffic_executeNext : ∃ reads writes,
    s.bus.Traffic s.executeNext.2.bus reads writes ∧ writes ≤ 2 ∧
    ∀ ticks, s.executeNext.1 = .ok ticks → s.fetched? ≠ some .stop →
      4 * (reads + writes) ≤ ticks := by
  cases h : s.fetched?
  case none =>
    obtain ⟨e, he⟩ := s.executeNext_of_fetched?_eq_none h
    rw [he]
    exact ⟨1, 0, s.traffic_fetch, by decide, nofun⟩
  case some i =>
    have hf : (s.fetches i.opcodeBytes).cpu.flags = s.cpu.flags := by
      rw [s.sameRegisters_fetches]
    have ht := (s.traffic_fetches i.opcodeBytes).trans (traffic_execute _ i)
    rw [hf, Nat.zero_add] at ht
    rw [s.executeNext_of_fetched? h]
    refine ⟨_, _, ht, i.writes_le _, fun ticks he hs => ?_⟩
    obtain rfl : i.cost s.cpu.flags = ticks := Except.ok.inj he
    exact Instruction.traffic_le_cost _ (fun hi => hs (congrArg some hi))
      fun hi => s.fetched?_ne_load_memHl (hi ▸ h)

theorem traffic_step : ∃ reads writes,
    s.bus.Traffic s.step.2.bus reads writes ∧ writes ≤ 2 ∧
    ∀ ticks, s.step.1 = .ok ticks → s.next? ≠ some .stop → 4 * (reads + writes) ≤ ticks := by
  have hd := s.traffic_dispatch
  simp only [step, next?]
  split
  case h_1 t ht =>
    rw [ht] at hd
    refine ⟨0, 2, hd, by decide, fun ticks he _ => ?_⟩
    cases he
    decide
  case h_2 t ht =>
    simp only [ht] at hd ⊢
    split
    case isTrue =>
      exact ⟨0, 0, hd, by decide, fun ticks _ _ => Nat.zero_le ticks⟩
    case isFalse =>
      obtain ⟨reads, writes, hx, hw⟩ := t.traffic_executeNext
      rw [← Nat.zero_add reads, ← Nat.zero_add writes] at hx
      exact ⟨reads, writes, by simpa using hd.trans hx, hw⟩

end Core

namespace Core

namespace Alike

variable {α β : Type} [Bus α] [Bus β] {R : α → β → Prop} {s : Core α} {t : Core β}

theorem fetched? (hb : MemoryAlike R) (h : s.Alike R t) : s.fetched? = t.fetched? := by
  obtain ⟨opcode, s', t', hs, ht, h⟩ := h.fetch hb
  obtain ⟨second, _, _, hs', ht', -⟩ := h.fetch hb
  simp only [Core.fetched?, hs, ht, hs', ht']

theorem next? (hb : BusAlike R) (h : s.Alike R t) : s.next? = t.next? := by
  obtain ⟨served, s', t', hs, ht, h⟩ := h.dispatch hb
  simp only [Core.next?, hs, ht]
  cases served
  case true  => rfl
  case false => simp only [h.cpu, h.fetched? hb.toMemoryAlike]

end Alike

variable {β : Type} [Bus β] (s : Core β)

-- The number of bytes that the next step reads or writes.
def stepTraffic : Nat := s.recorded.step.2.bus.traffic

-- Whoever keeps a record sees the same instruction.
theorem next?_recorded : s.recorded.next? = s.next? := by
  have h : s.recorded.Alike (Recorder.Tells (fun _ => True) fun _ => True) s :=
    recorded_alike trivial
  exact h.next? (Recorder.busAlike_tells ⟨fun h _ => h, fun h _ _ _ => h, id⟩)

-- The ticks of a step pay for its traffic, at four ticks a byte, unless it stops the processor.
theorem step_pays_traffic :
    (∀ ticks, s.step.1 = .ok ticks → s.next? ≠ some .stop → 4 * s.stepTraffic ≤ ticks) ∧
    s.stepWrites.length ≤ 2 := by
  obtain ⟨reads, writes, ht, hw, hp⟩ := s.recorded.traffic_step
  have hr : s.recorded.step.2.bus.reads = reads := ht.reads.trans (Nat.zero_add reads)
  have hn : s.recorded.step.2.bus.writes.size = writes := ht.writes.trans (Nat.zero_add writes)
  refine ⟨fun ticks he hs => ?_, ?_⟩
  · rw [stepTraffic, Recorder.traffic, hr, hn]
    exact hp ticks (s.step_recorded.1.trans he) (s.next?_recorded ▸ hs)
  · rw [stepWrites, Array.length_toList, hn]
    exact hw

-- The stack pointer is put into memory: three bytes are read and two are written, and the twenty
-- ticks are just enough.
theorem step_pays_traffic_storeSp :
    let s : Core Flat := { cpu := .postBoot, bus := Flat.load {} 0x0100 [0x08, 0x00, 0xc0] }
    (s.step.1 = .ok 20 ∧ s.next? ≠ some .stop) ∧
    4 * s.stepTraffic ≤ 20 ∧ s.stepWrites.length ≤ 2 := by
  intro s
  have hc : s.bus.Contains s.cpu.pc [0x08, 0x00, 0xc0] := Flat.contains_load _ _ (by simp)
  have ho : Instruction.ofOpcode? [0x08] = some .storeSp := by decide
  have hn : s.next? = some .storeSp := next?_of_contains rfl (fun _ => rfl) ho ⟨hc.1, trivial⟩
  have hs : s.step.1 = .ok 20 := congrArg Prod.fst (step_eq_of_next? hn)
  have hi : s.next? ≠ some .stop := by rw [hn]; decide
  exact ⟨⟨hs, hi⟩, (step_pays_traffic s).1 20 hs hi, (step_pays_traffic s).2⟩

end Core
end DotMatrix
