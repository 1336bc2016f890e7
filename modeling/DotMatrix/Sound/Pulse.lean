import DotMatrix.Sound.Envelope
import DotMatrix.Sound.Length
import DotMatrix.Sound.Period
import DotMatrix.Sound.Sweep

namespace DotMatrix.Sound

-- The parts of the wave, in eighths, that are high.
inductive Duty
  | eighth
  | quarter
  | half
  | threeQuarters
  deriving Repr, DecidableEq

namespace Duty

def ofRegister (b : UInt8) : Duty :=
  match bitField b 6 2 with
  | 0 => eighth
  | 1 => quarter
  | 2 => half
  | _ => threeQuarters

def high (step : BitVec 3) : Duty → Bool
  | eighth        => step = 7
  | quarter       => 6 ≤ step
  | half          => 4 ≤ step
  | threeQuarters => step < 6

end Duty

-- A square wave of eight steps, of which a duty setting picks the high ones.
structure Pulse where
  nrx1     : UInt8 := 0
  nrx2     : UInt8 := 0
  nrx3     : UInt8 := 0
  nrx4     : UInt8 := 0
  dutyStep : BitVec 3 := 0
  ticks    : Counter := {}
  length   : Counter := Length.counter 64 0
  envelope : Envelope := {}
  enabled  : Bool := false
  deriving Repr, DecidableEq, Inhabited

namespace Pulse

variable (p : Pulse)

def frequency : Nat := Sound.frequency p.nrx3 p.nrx4

-- Ticks per step of the wave.
def period : Nat := periodOf 4 p.frequency

-- The counter for the length that is programmed.
def newLength : Counter := Length.counter 64 (bitField p.nrx1 0 6)

def setDuty (v : UInt8) : Pulse :=
  let p := { p with nrx1 := v }
  { p with length := p.newLength }

def setVolume (v : UInt8) : Pulse := { p with nrx2 := v, envelope := .ofRegister v }

-- Fits the wave to the frequency that is set, without a new start.
def rearm : Pulse := { p with ticks := p.ticks.rearm p.period }

def setLow (v : UInt8) : Pulse := { p with nrx3 := v }.rearm

-- The wave goes on from the step it is at.
def trigger : Pulse :=
  { p with
    enabled  := true
    ticks    := .ofPeriod p.period
    length   := p.newLength
    envelope := .ofRegister p.nrx2 }

def setControl (v : UInt8) : Pulse :=
  let p := { p with nrx4 := Control.kept v }.rearm
  if Control.triggers v then p.trigger else p

def setFrequency (frequency : Nat) : Pulse :=
  { p with nrx3 := .ofNat frequency, nrx4 := Control.setFrequency p.nrx4 frequency }.rearm

def amplitude : Float32 :=
  p.envelope.apply (if (Duty.ofRegister p.nrx1).high p.dutyStep then 1.0 else -1.0)

def clock (ticks : Nat) : Pulse :=
  if p.enabled then
    let (edges, counter) := p.ticks.run ticks
    let (expired, length) := Length.clock p.length (Control.lengthOn p.nrx4) ticks
    { p with
      dutyStep := p.dutyStep + .ofNat 3 edges
      ticks    := counter
      length   := length
      envelope := p.envelope.clock ticks
      enabled  := !expired }
  else
    p

end Pulse

-- A pulse channel with a frequency sweep.
structure SweptPulse where
  pulse : Pulse := {}
  sweep : Sweep := {}
  deriving Repr, DecidableEq, Inhabited

namespace SweptPulse

variable (s : SweptPulse)

def setSweep (v : UInt8) : SweptPulse := { s with sweep := s.sweep.setRegister v }

def setControl (v : UInt8) : SweptPulse :=
  { pulse := s.pulse.setControl v
    sweep := if Control.triggers v then s.sweep.trigger else s.sweep }

-- The sweep still sees the time in which the channel's length runs out.
def clock (ticks : Nat) : SweptPulse :=
  if s.pulse.enabled then
    let pulse := s.pulse.clock ticks
    let (action, sweep) := s.sweep.clock ticks pulse.frequency
    match action with
    | .nothing        => { pulse, sweep }
    | .disable        => { pulse := { pulse with enabled := false }, sweep }
    | .setFrequency f => { pulse := pulse.setFrequency f, sweep }
  else
    s

end SweptPulse
end DotMatrix.Sound
