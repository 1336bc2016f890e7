import Mathlib.Algebra.Ring.Nat
import Mathlib.Data.List.Induction
import DotMatrix.Proofs.Sound.Buffers
import DotMatrix.Proofs.Sound.Registers

namespace DotMatrix

namespace Sound

-- What happens to the unit. Addresses are given by their low bytes.
inductive Event
  | write (low v : UInt8)
  | advance (ticks : Nat)
  deriving Repr, DecidableEq

namespace Event

-- The value that is written at an address.
def valueAt? (low : UInt8) : Event → Option UInt8
  | write a v => if a = low then some v else none
  | advance _ => none

def switchesOff : Event → Bool
  | write low v => low = 0x26 && !testBit v 7
  | advance _   => false

-- The time that passes.
def ticks : Event → Nat
  | write _ _     => 0
  | advance ticks => ticks

end Event

-- The value that was last written at an address.
def lastValue? (low : UInt8) (es : List Event) : Option UInt8 :=
  (es.filterMap (Event.valueAt? low)).getLast?

-- The power is on at first, and then as the master register says.
def poweredAfter (es : List Event) : Bool := (lastValue? 0x26 es).all (testBit · 7)

-- What one more event puts into a register. Nothing comes to it without power, and it is cleared
-- when the power is switched off.
def put? (low : UInt8) (before : List Event) (e : Event) : Option UInt8 :=
  if poweredAfter before then
    if e.switchesOff then some 0 else e.valueAt? low
  else none

-- What some events put into a register that come after others.
def putFrom (low : UInt8) (before : List Event) : List Event → List UInt8
  | []      => []
  | e :: es => (put? low before e).toList ++ putFrom low (before ++ [e]) es

-- The value that the boot program leaves in a register.
def firstValue : UInt8 → UInt8
  | 0x24 => 0x77
  | 0x25 => 0xf3
  | _    => 0

-- The value of a register is what was last put there.
def registerAfter (low : UInt8) (es : List Event) : UInt8 :=
  (putFrom low [] es).getLast?.getD (firstValue low)

section History

variable (low a v : UInt8) (es : List Event) (e : Event)

theorem lastValue?_concat :
    lastValue? low (es ++ [e]) = (e.valueAt? low).or (lastValue? low es) := by
  rw [lastValue?, List.filterMap_append]
  cases he : e.valueAt? low
  case none   => simp [lastValue?, he]
  case some v => simp [he]

theorem poweredAfter_write : poweredAfter (es ++ [.write a v]) =
    if a = 0x26 then testBit v 7 else poweredAfter es := by
  rw [poweredAfter, lastValue?_concat, Event.valueAt?]
  split <;> rfl

theorem poweredAfter_advance (ticks : Nat) :
    poweredAfter (es ++ [.advance ticks]) = poweredAfter es := by
  rw [poweredAfter, lastValue?_concat, Event.valueAt?, Option.none_or, poweredAfter]

theorem put?_master (h : low ≠ 0x26) : put? low es (.write 0x26 v) =
    if poweredAfter es && !testBit v 7 then some 0 else none := by
  rw [put?, Event.switchesOff, Event.valueAt?, if_neg h.symm]
  cases poweredAfter es <;> rfl

theorem put?_write (h : a ≠ 0x26) : put? low es (.write a v) =
    if poweredAfter es ∧ a = low then some v else none := by
  cases hp : poweredAfter es <;> simp [put?, Event.switchesOff, Event.valueAt?, h, hp]

theorem putFrom_concat (before : List Event) : putFrom low before (es ++ [e]) =
    putFrom low before es ++ (put? low (before ++ es) e).toList := by
  induction es generalizing before with
  | nil          => simp [putFrom]
  | cons _ es ih => simp [putFrom, ih]

theorem registerAfter_concat :
    registerAfter low (es ++ [e]) = (put? low es e).getD (registerAfter low es) := by
  rw [registerAfter, putFrom_concat, List.nil_append]
  cases put? low es e
  case none   => simp [registerAfter]
  case some v => simp

theorem registerAfter_advance (ticks : Nat) :
    registerAfter low (es ++ [.advance ticks]) = registerAfter low es := by
  simp [registerAfter_concat, put?, Event.switchesOff, Event.valueAt?]

end History
end Sound

open Sound

namespace Apu

def follow (s : Apu) : Event → Apu
  | .write low v   => s.write low v
  | .advance ticks => (s.advance ticks).snd

def run (s : Apu) (es : List Event) : Apu := es.foldl follow s

-- What holds at some time, and is kept by all that is written and by any time that passes, holds
-- at the end of a run.
theorem run_of_steps {P : Nat → Apu → Prop} {ok : Event → Prop} {s : Apu} {time : Nat}
    {es : List Event} (h : P time s) (hok : ∀ e ∈ es, ok e)
    (hw : ∀ {s time low v}, P time s → ok (.write low v) → P time (s.write low v))
    (ha : ∀ {s time} ticks, P time s → P (time + ticks) (s.advance ticks).snd) :
    P (time + (es.map Event.ticks).sum) (s.run es) := by
  induction es generalizing s time with
  | nil => exact h
  | cons e es ih =>
    obtain ⟨he, hes⟩ := List.forall_mem_cons.mp hok
    rw [List.map_cons, List.sum_cons, ← Nat.add_assoc]
    cases e
    case write low v   => exact ih (hw h he) hes
    case advance ticks => exact ih (ha ticks h) hes

-- The unit is as the history of its registers tells.
structure Remembers (es : List Event) (s : Apu) : Prop where
  power    : s.enabled = poweredAfter es
  register : ∀ {r : Sound.Register} {mask}, readMask? r.low = some mask →
    s.readRegister r = mask ||| registerAfter r.low es
  wave     : ∀ i : Fin 16,
    s.ch3.ram.get i = (lastValue? (Sound.Register.wave i).low es).getD 0

namespace Remembers

variable {s : Apu} {es : List Event}

theorem postBoot (config : Config) : (Apu.postBoot config).Remembers [] where
  power  := rfl
  wave i := by
    simp [Apu.postBoot, Memory.zeros, lastValue?, Vector.get]
  register {r mask} hm := by
    have hc : (Apu.postBoot config).readRegister r = (Apu.postBoot {}).readRegister r := by
      cases r <;> rfl
    rw [hc]
    cases r
    case wave i => exact absurd hm (by rw [readMask?_wave]; nofun)
    all_goals cases hm
    all_goals decide

-- Time has no part in it.
theorem advance (h : s.Remembers es) (ticks : Nat) :
    (s.advance ticks).snd.Remembers (es ++ [.advance ticks]) where
  power := by
    rw [poweredAfter_advance, ← h.power]
    exact s.advance_enabled ticks
  wave i := by
    rw [s.advance_ch3_ram, lastValue?_concat]
    exact h.wave i
  register {r mask} hm := by
    have hr : r ≠ .nr52 := fun hr => by subst hr; cases hm
    rw [s.readRegister_advance hr, h.register hm, registerAfter_advance]

theorem write (h : s.Remembers es) (low v : UInt8) :
    (s.write low v).Remembers (es ++ [.write low v]) where
  power := by
    rw [s.write_enabled, poweredAfter_write, h.power]
  wave i := by
    rw [s.write_ch3_ram, h.wave i, lastValue?_concat, Event.valueAt?]
    split <;> rfl
  register {r mask} hm := by
    rw [registerAfter_concat]
    by_cases hl : low = 0x26
    case pos =>
      have hr : r.low ≠ 0x26 := fun hr => by rw [hr] at hm; cases hm
      have hw : s.write low v = s.setPower (testBit v 7) := by rw [hl]; rfl
      rw [hw, s.readRegister_setPower hm, hl, put?_master _ _ _ hr, h.power, h.register hm]
      split
      · exact UInt8.or_zero.symm
      · rfl
    case neg =>
      rw [s.readRegister_write _ _ hm hl, put?_write _ _ _ _ hl, h.power, h.register hm]
      split <;> rfl

theorem follow (h : s.Remembers es) (e : Event) : (s.follow e).Remembers (es ++ [e]) := by
  cases e
  case write low v   => exact h.write low v
  case advance ticks => exact h.advance ticks

theorem run (config : Config) (es : List Event) :
    ((Apu.postBoot config).run es).Remembers es := by
  induction es using List.reverseRecOn with
  | nil            => exact postBoot config
  | append_singleton es e ih =>
    rw [Apu.run, List.foldl_concat]
    exact ih.follow e

end Remembers

-- After any run every address shows what the history tells: a register its value under its mask,
-- the wave memory its last byte, the master register the power over three ones, and the rest ones.
-- Whatever goes on in the channels has no part in it.
theorem read_of_run (config : Config) (es : List Event) :
    let s := (Apu.postBoot config).run es
    (∀ low mask, readMask? low = some mask → s.read low = mask ||| registerAfter low es) ∧
    (∀ low, 0x30 ≤ low → low ≤ 0x3f → s.read low = (lastValue? low es).getD 0) ∧
    (∀ low, readMask? low = none → low ≠ 0x26 → ¬(0x30 ≤ low ∧ low ≤ 0x3f) → s.read low = 0xff) ∧
    testBit (s.read 0x26) 7 = poweredAfter es ∧
    (∀ i, 4 ≤ i → i ≤ 6 → testBit (s.read 0x26) i) ∧
    ∀ ticks low, low ≠ 0x26 → (s.advance ticks).snd.read low = s.read low := by
  intro s
  have h : s.Remembers es := .run config es
  obtain ⟨hp, ho, -⟩ := s.testBit_status
  refine ⟨fun low mask hm => ?_, fun low hl hl' => ?_, fun low hm hl hw => ?_, ?_, ho,
    fun ticks low hl => s.read_advance hl ticks⟩
  · obtain ⟨r, rfl⟩ := exists_of_readMask? hm
    rw [s.read_low, h.register hm]
  · obtain ⟨i, rfl⟩ := Sound.Register.exists_wave hl hl'
    rw [s.read_low]
    exact h.wave i
  · exact s.read_eq_openBus hm hl hw
  · exact hp.trans h.power

-- A volume that is lost with the power, and one that comes without it.
example : registerAfter 0x12 [.write 0x12 0xf3, .advance 8, .write 0x26 0, .write 0x12 0x55,
    .write 0x26 0x80] = 0 := by
  decide

end Apu
end DotMatrix
