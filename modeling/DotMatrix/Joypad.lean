import DotMatrix.Bits

namespace DotMatrix

inductive Button
  | right
  | left
  | up
  | down
  | a
  | b
  | select
  | start
  deriving Repr, DecidableEq

namespace Button

def all : List Button := [right, left, up, down, a, b, select, start]

-- The bit of the button within its group.
def mask : Button → UInt8
  | right | a      => 0x1
  | left  | b      => 0x2
  | up    | select => 0x4
  | down  | start  => 0x8

def isDirection : Button → Bool
  | right | left | up | down => true
  | a | b | select | start   => false

def name : Button → String
  | right  => "Right"
  | left   => "Left"
  | up     => "Up"
  | down   => "Down"
  | a      => "A"
  | b      => "B"
  | select => "Select"
  | start  => "Start"

-- The masks of the directions and of the actions among some held buttons.
def masks (held : List Button) : UInt8 × UInt8 :=
  held.foldl (fun (directions, actions) button =>
    if button.isDirection then (directions ||| button.mask, actions)
    else (directions, actions ||| button.mask)) (0, 0)

end Button

structure Joypad where
  -- Held buttons, directions in the low nibble and actions in the high one.
  held : UInt8 := 0
  -- The register's own bits: 6 and 7 always set, 4 and 5 clear for a selected group.
  own  : UInt8 := 0xf0
  deriving Repr, DecidableEq, Inhabited

namespace Joypad

-- Replaces the held buttons, and tells whether one of them is newly pressed.
def hold (j : Joypad) (directions actions : UInt8) : Bool × Joypad :=
  let held := (directions &&& 0x0f) ||| actions <<< (4 : UInt8)
  ((held &&& ~~~j.held) != 0, { j with held })

-- Pressed buttons and selected groups read as zeros.
def read (j : Joypad) : UInt8 :=
  let directions : UInt8 := if testBit j.own 4 then 0x0f else ~~~j.held &&& 0x0f
  let actions : UInt8 := if testBit j.own 5 then 0x0f else ~~~(j.held >>> (4 : UInt8)) &&& 0x0f
  (j.own &&& 0xf0) ||| (directions &&& actions)

-- Only the two selection bits can be written.
def select (j : Joypad) (v : UInt8) : Joypad :=
  { j with own := (j.own &&& 0xcf) ||| (v &&& 0x30) }

end Joypad
end DotMatrix
