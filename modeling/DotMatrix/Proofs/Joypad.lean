import Mathlib.Data.FinEnum
import DotMatrix.Joypad
import DotMatrix.Proofs.Interrupt

namespace DotMatrix

namespace Button

-- Whether masks for the directions and the actions hold the button.
def isHeld (button : Button) (masks : UInt8 × UInt8) : Bool :=
  (if button.isDirection then masks.fst else masks.snd) &&& button.mask != 0

-- The buttons that are held now and were not held before.
def pressed (before now : UInt8 × UInt8) : List Button :=
  all.filter fun button => button.isHeld now && !button.isHeld before

-- The bit of the button among those of both groups.
def bit : Button → Nat
  | right  => 0
  | left   => 1
  | up     => 2
  | down   => 3
  | a      => 4
  | b      => 5
  | select => 6
  | start  => 7

theorem bne_zero_eq_any (held : UInt8) :
    (held != 0) = all.any fun button => testBit held button.bit := by
  revert held
  decide +kernel

theorem testBit_not_bit (held : UInt8) (button : Button) :
    testBit (~~~held) button.bit = !testBit held button.bit := by
  revert held
  cases button <;> decide +kernel

end Button

namespace Joypad

open Button Interrupts

-- Held buttons as they are kept.
def bits (directions actions : UInt8) : UInt8 :=
  (directions &&& 0x0f) ||| actions <<< (4 : UInt8)

theorem testBit_bits (directions actions : UInt8) (button : Button) :
    testBit (bits directions actions) button.bit = button.isHeld (directions, actions) := by
  have hd : testBit (directions &&& 0x0f) button.bit =
      (button.isDirection && directions &&& button.mask != 0) := by
    revert directions
    cases button <;> decide +kernel
  have ha : testBit (actions <<< (4 : UInt8)) button.bit =
      (!button.isDirection && actions &&& button.mask != 0) := by
    revert actions
    cases button <;> decide +kernel
  rw [bits, testBit_or, hd, ha, isHeld]
  cases button.isDirection
  case false => exact Bool.false_or _
  case true  => exact Bool.or_false _

variable {j : Joypad} {before now : UInt8 × UInt8} {directions actions : UInt8}

-- To hold the same buttons once more is to do nothing.
theorem hold_of_held (h : j.held = bits directions actions) :
    j.hold directions actions = (false, j) := by
  have hb : (directions &&& 0x0f) ||| actions <<< (4 : UInt8) = j.held := h.symm
  simp only [hold, hb, UInt8.and_not_self, bne_self_eq_false]

-- The joypad tells of a press exactly if a button is pressed.
theorem hold_pressed (h : j.held = bits before.fst before.snd) :
    (j.hold now.fst now.snd).fst = decide (0 < (pressed before now).length) := by
  have hx (button : Button) : testBit (bits now.fst now.snd &&& ~~~j.held) button.bit =
      (button.isHeld now && !button.isHeld before) := by
    rw [testBit_and, testBit_not_bit, h, testBit_bits, testBit_bits]
  have hp : (j.hold now.fst now.snd).fst =
      all.any fun button => button.isHeld now && !button.isHeld before := by
    simp only [← hx]
    exact bne_zero_eq_any _
  rw [hp, Bool.eq_iff_iff, decide_eq_true_iff, List.length_pos_iff_exists_mem, List.any_eq_true]
  simp only [pressed, List.mem_filter]

end Joypad
end DotMatrix
