import DotMatrix.Cpu.Arithmetic
import DotMatrix.Cpu.Registers

namespace DotMatrix

inductive Flag
  | zero
  | sub
  | half
  | carry
  deriving Repr, DecidableEq

namespace Flag

def mask : Flag → UInt8
  | zero  => 0x80
  | sub   => 0x40
  | half  => 0x20
  | carry => 0x10

-- The byte in which a flag alone may be set.
def byteIf (flag : Flag) (value : Bool) : UInt8 := if value then flag.mask else 0

end Flag

namespace Flags

def get (f : Flags) : Flag → Bool
  | .zero  => f.zero
  | .sub   => f.sub
  | .half  => f.half
  | .carry => f.carry

def set (f : Flags) (flag : Flag) (value : Bool) : Flags :=
  match flag with
  | .zero  => { f with zero := value }
  | .sub   => { f with sub := value }
  | .half  => { f with half := value }
  | .carry => { f with carry := value }

theorem toByte_eq (f : Flags) :
    f.toByte = Flag.zero.byteIf f.zero ||| Flag.sub.byteIf f.sub ||| Flag.half.byteIf f.half |||
      Flag.carry.byteIf f.carry :=
  rfl

theorem toByte_and_mask (f : Flags) (flag : Flag) : (f.toByte &&& flag.mask != 0) = f.get flag := by
  rcases f with ⟨_ | _, _ | _, _ | _, _ | _⟩ <;> cases flag <;> rfl

-- The low nibble is lost when a byte is read as flags.
theorem toByte_ofByte (b : UInt8) : (ofByte b).toByte = b &&& 0xf0 := by
  have h : ∀ n : Fin 256, (ofByte (.ofNat n)).toByte = .ofNat n &&& 0xf0 := by decide +kernel
  simpa using h ⟨b.toNat, b.toNat_lt⟩

end Flags

-- The byte registers in pairs with the low byte first: C B, E D, L H, F A.
structure RegisterFile where
  bytes : Vector UInt8 8
  sp    : UInt16

def Register.index : Register → Nat
  | .c => 0
  | .b => 1
  | .e => 2
  | .d => 3
  | .l => 4
  | .h => 5
  | .a => 7

-- Where the pair lies in the array, if it does.
def Pair.index? : Pair → Option Nat
  | .bc => some 0
  | .de => some 1
  | .hl => some 2
  | .af => some 3
  | .sp => none

namespace RegisterFile

def flagIndex : Nat := 6

variable (r : RegisterFile)

-- All indices below are within the array.
def get (i : Nat) : UInt8 := r.bytes.getD i 0

def set (i : Nat) (v : UInt8) : RegisterFile := { r with bytes := r.bytes.setIfInBounds i v }

def flagByte : UInt8 := r.get flagIndex

def setFlagByte (v : UInt8) : RegisterFile := r.set flagIndex v

def flag (flag : Flag) : Bool := r.flagByte &&& flag.mask != 0

-- Gives the flags of a mask a value and keeps the rest of their byte.
def setMask (mask : UInt8) (value : Bool) : RegisterFile :=
  r.setFlagByte (r.flagByte &&& ~~~mask ||| if value then mask else 0)

def setFlag (flag : Flag) (value : Bool) : RegisterFile := r.setMask flag.mask value

def getPair (rr : Pair) : UInt16 :=
  match rr.index? with
  | some i => word (r.get (2 * i)) (r.get (2 * i + 1))
  | none   => r.sp

def setPair (rr : Pair) (v : UInt16) : RegisterFile :=
  match rr.index? with
  | some i =>
    let r := (r.set (2 * i) (lowByte v)).set (2 * i + 1) (highByte v)
    if rr = .af then r.setFlagByte (r.flagByte &&& 0xf0) else r
  | none => { r with sp := v }

def zeros : RegisterFile where
  bytes := .replicate 8 0
  sp    := 0

def postBoot : RegisterFile :=
  ((zeros.setPair .af 0x1180).setPair .de 0xff56).setPair .sp 0xfffe

-- The registers of a processor.
def ofCpu (cpu : Cpu) : RegisterFile where
  bytes := #v[cpu.c, cpu.b, cpu.e, cpu.d, cpu.l, cpu.h, cpu.flags.toByte, cpu.a]
  sp    := cpu.sp

variable (cpu : Cpu)

theorem ofCpu_postBoot : ofCpu .postBoot = postBoot := by
  rfl

theorem get_ofCpu (x : Register) : (ofCpu cpu).get x.index = cpu.get x := by
  cases x <;> rfl

theorem flag_ofCpu (flag : Flag) : (ofCpu cpu).flag flag = cpu.flags.get flag :=
  Flags.toByte_and_mask ..

theorem setFlag_ofCpu (flag : Flag) (value : Bool) :
    (ofCpu cpu).setFlag flag value = ofCpu { cpu with flags := cpu.flags.set flag value } := by
  have h (f : Flags) : f.toByte &&& ~~~flag.mask ||| (if value then flag.mask else 0) =
      (f.set flag value).toByte := by
    rcases f with ⟨_ | _, _ | _, _ | _, _ | _⟩ <;> cases flag <;> cases value <;> rfl
  exact congrArg (ofCpu cpu).setFlagByte (h cpu.flags)

theorem setMask_subHalf_ofCpu (value : Bool) :
    (ofCpu cpu).setMask (Flag.sub.mask ||| Flag.half.mask) value =
      ofCpu { cpu with flags := { cpu.flags with sub := value, half := value } } := by
  have h (f : Flags) : f.toByte &&& ~~~(Flag.sub.mask ||| Flag.half.mask) |||
      (if value then Flag.sub.mask ||| Flag.half.mask else 0) =
        { f with sub := value, half := value }.toByte := by
    rcases f with ⟨_ | _, _ | _, _ | _, _ | _⟩ <;> cases value <;> rfl
  exact congrArg (ofCpu cpu).setFlagByte (h cpu.flags)

theorem getPair_ofCpu (rr : Pair) : (ofCpu cpu).getPair rr = cpu.getPair rr := by
  cases rr <;> rfl

theorem setPair_ofCpu (rr : Pair) (v : UInt16) :
    (ofCpu cpu).setPair rr v = ofCpu (cpu.setPair rr v) := by
  cases rr
  case af =>
    have h := Flags.toByte_ofByte (lowByte v)
    exact congrArg (ofCpu { cpu with a := highByte v }).setFlagByte h.symm
  all_goals rfl

end RegisterFile

-- Results that come with the byte of their flags.
namespace FlagByte

def addWithCarry (a b : UInt8) (carry : Bool) : UInt8 × UInt8 :=
  let sum := a.toNat + b.toNat + carry.toNat
  let result := UInt8.ofNat sum
  (result,
    Flag.zero.byteIf (result == 0) |||
    Flag.half.byteIf (0xf < a.toNat % 0x10 + b.toNat % 0x10 + carry.toNat) |||
    Flag.carry.byteIf (0xff < sum))

def subWithBorrow (a b : UInt8) (borrow : Bool) : UInt8 × UInt8 :=
  let taken := b.toNat + borrow.toNat
  let result := UInt8.ofNat (0x100 + a.toNat - taken)
  (result,
    Flag.zero.byteIf (result == 0) ||| Flag.sub.mask |||
    Flag.half.byteIf (a.toNat % 0x10 < b.toNat % 0x10 + borrow.toNat) |||
    Flag.carry.byteIf (a.toNat < taken))

def apply (op : AluOp) (a b : UInt8) (carry : Bool) : UInt8 × UInt8 :=
  match op with
  | .add => addWithCarry a b false
  | .adc => addWithCarry a b carry
  | .sub => subWithBorrow a b false
  | .sbc => subWithBorrow a b carry
  | .cp  => (a, (subWithBorrow a b false).2)
  | .and => let r := a &&& b; (r, Flag.zero.byteIf (r == 0) ||| Flag.half.mask)
  | .xor => let r := a ^^^ b; (r, Flag.zero.byteIf (r == 0))
  | .or  => let r := a ||| b; (r, Flag.zero.byteIf (r == 0))

theorem addWithCarry_eq (a b : UInt8) (carry : Bool) :
    addWithCarry a b carry = Prod.map id Flags.toByte (Arithmetic.addWithCarry a b carry) := by
  simp [addWithCarry, Arithmetic.addWithCarry, Flags.toByte_eq, Flag.byteIf]

theorem subWithBorrow_eq (a b : UInt8) (borrow : Bool) :
    subWithBorrow a b borrow = Prod.map id Flags.toByte (Arithmetic.subWithBorrow a b borrow) := by
  simp [subWithBorrow, Arithmetic.subWithBorrow, Flags.toByte_eq, Flag.byteIf]

theorem apply_eq (op : AluOp) (a b : UInt8) (carry : Bool) :
    apply op a b carry = Prod.map id Flags.toByte (op.apply a b carry) := by
  cases op
  case add | adc => exact addWithCarry_eq ..
  case sub | sbc => exact subWithBorrow_eq ..
  case cp        => simp [apply, AluOp.apply, subWithBorrow_eq]
  all_goals simp [apply, AluOp.apply, Flags.toByte_eq, Flag.byteIf]

end FlagByte

namespace RegisterFile

variable (r : RegisterFile)

def a : UInt8 := r.get Register.a.index

def setA (v : UInt8) : RegisterFile := r.set Register.a.index v

def alu (op : AluOp) (v : UInt8) : RegisterFile :=
  let (a, flags) := FlagByte.apply op r.a v (r.flag .carry)
  (r.setA a).setFlagByte flags

-- Gives all flags but the carry a value.
def setButCarry (zero sub half : Bool) : RegisterFile :=
  ((r.setFlag .zero zero).setFlag .sub sub).setFlag .half half

-- The flags of an increment, those of a decrement, and those of the test of a bit.
def incFlags (result : UInt8) : RegisterFile :=
  r.setButCarry (result == 0) false (result &&& 0xf == 0)

def decFlags (result : UInt8) : RegisterFile :=
  r.setButCarry (result == 0) true (result &&& 0xf == 0xf)

def bitFlags (bit : Bool) : RegisterFile := r.setButCarry (!bit) false true

def shiftFlags (result : UInt8) (out : Bool) : RegisterFile :=
  r.setFlagByte (Flag.zero.byteIf (result == 0) ||| Flag.carry.byteIf out)

def rotateA (op : Rotation) : RegisterFile :=
  let (v, out) := op.apply r.a (r.flag .carry)
  ((r.setA v).shiftFlags v out).setFlag .zero false

def daa : RegisterFile :=
  let (a, carry) :=
    if r.flag .sub then
      let a := if r.flag .carry then r.a - 0x60 else r.a
      (if r.flag .half then a - 0x06 else a, r.flag .carry)
    else
      let carry := r.flag .carry || 0x99 < r.a
      let a := if carry then r.a + 0x60 else r.a
      (if r.flag .half || 0x9 < a &&& 0xf then a + 0x06 else a, carry)
  (((r.setA a).setFlag .zero (a == 0)).setFlag .half false).setFlag .carry carry

def cpl : RegisterFile := (r.setA (r.a ^^^ 0xff)).setMask (Flag.sub.mask ||| Flag.half.mask) true

def scf : RegisterFile :=
  (r.setMask (Flag.sub.mask ||| Flag.half.mask) false).setFlag .carry true

def ccf : RegisterFile :=
  (r.setMask (Flag.sub.mask ||| Flag.half.mask) false).setFlag .carry !r.flag .carry

def addHl (rr : Pair) : RegisterFile :=
  let hl := r.getPair .hl
  let v := r.getPair rr
  let half := 0xfff < hl.toNat % 0x1000 + v.toNat % 0x1000
  (((r.setPair .hl (hl + v)).setFlag .sub false).setFlag .half half).setFlag .carry
    (0xffff < hl.toNat + v.toNat)

-- The stack pointer plus a signed byte, with the flags of that sum.
def offsetSp (offset : UInt8) : UInt16 × RegisterFile :=
  let (_, flags) := FlagByte.addWithCarry (lowByte r.sp) offset false
  (r.sp + signExtend offset, r.setFlagByte (flags &&& (Flag.half.mask ||| Flag.carry.mask)))

variable (cpu : Cpu)

theorem a_ofCpu : (ofCpu cpu).a = cpu.a :=
  rfl

theorem setA_ofCpu (v : UInt8) : (ofCpu cpu).setA v = ofCpu { cpu with a := v } :=
  rfl

theorem alu_ofCpu (op : AluOp) (v : UInt8) :
    (ofCpu cpu).alu op v =
      ofCpu { cpu with
        a     := (op.apply cpu.a v cpu.flags.carry).1
        flags := (op.apply cpu.a v cpu.flags.carry).2 } := by
  simp only [alu, a_ofCpu, flag_ofCpu, FlagByte.apply_eq]
  rfl

theorem setButCarry_ofCpu (zero sub half : Bool) :
    (ofCpu cpu).setButCarry zero sub half =
      ofCpu { cpu with flags := { cpu.flags with zero, sub, half } } := by
  simp only [setButCarry, setFlag_ofCpu]
  rfl

theorem incFlags_ofCpu (v : UInt8) :
    (ofCpu cpu).incFlags (v + 1) = ofCpu { cpu with flags := (Arithmetic.inc v cpu.flags).2 } :=
  setButCarry_ofCpu ..

theorem decFlags_ofCpu (v : UInt8) :
    (ofCpu cpu).decFlags (v - 1) = ofCpu { cpu with flags := (Arithmetic.dec v cpu.flags).2 } :=
  setButCarry_ofCpu ..

theorem shiftFlags_ofCpu (v : UInt8) (out : Bool) :
    (ofCpu cpu).shiftFlags v out =
      ofCpu { cpu with flags := { zero := v == 0, carry := out } } := by
  have h : Flag.zero.byteIf (v == 0) ||| Flag.carry.byteIf out =
      Flags.toByte { zero := v == 0, carry := out } := by
    simp [Flags.toByte_eq, Flag.byteIf]
  exact congrArg (ofCpu cpu).setFlagByte h

theorem rotateA_ofCpu (op : Rotation) :
    (ofCpu cpu).rotateA op =
      ofCpu { cpu with
        a     := (op.apply cpu.a cpu.flags.carry).1
        flags := { carry := (op.apply cpu.a cpu.flags.carry).2 } } := by
  simp only [rotateA, a_ofCpu, flag_ofCpu, setA_ofCpu, shiftFlags_ofCpu, setFlag_ofCpu]
  rfl

theorem daa_ofCpu :
    (ofCpu cpu).daa =
      ofCpu { cpu with
        a     := (Arithmetic.decimalAdjust cpu.a cpu.flags).1
        flags := (Arithmetic.decimalAdjust cpu.a cpu.flags).2 } := by
  simp only [daa, a_ofCpu, flag_ofCpu, setA_ofCpu, setFlag_ofCpu]
  rfl

theorem cpl_ofCpu :
    (ofCpu cpu).cpl =
      ofCpu { cpu with
        a     := ~~~cpu.a
        flags := { cpu.flags with sub := true, half := true } } := by
  have hx : cpu.a ^^^ 0xff = ~~~cpu.a := UInt8.xor_neg_one
  simp only [cpl, a_ofCpu, setA_ofCpu, setMask_subHalf_ofCpu, hx]

theorem scf_ofCpu :
    (ofCpu cpu).scf =
      ofCpu { cpu with
        flags := { cpu.flags with sub := false, half := false, carry := true } } := by
  simp only [scf, setMask_subHalf_ofCpu, setFlag_ofCpu]
  rfl

theorem ccf_ofCpu :
    (ofCpu cpu).ccf =
      ofCpu { cpu with
        flags := { cpu.flags with sub := false, half := false, carry := !cpu.flags.carry } } := by
  simp only [ccf, setMask_subHalf_ofCpu, setFlag_ofCpu, flag_ofCpu]
  rfl

theorem addHl_ofCpu (rr : Pair) :
    (ofCpu cpu).addHl rr =
      ofCpu { cpu.setPair .hl (Arithmetic.addWords cpu.hl (cpu.getPair rr) cpu.flags).1 with
        flags := (Arithmetic.addWords cpu.hl (cpu.getPair rr) cpu.flags).2 } := by
  simp only [addHl, getPair_ofCpu, setPair_ofCpu, setFlag_ofCpu]
  rfl

theorem offsetSp_ofCpu (offset : UInt8) :
    (ofCpu cpu).offsetSp offset =
      ((Arithmetic.addOffset cpu.sp offset).1,
        ofCpu { cpu with flags := (Arithmetic.addOffset cpu.sp offset).2 }) := by
  have h (f : Flags) : f.toByte &&& (Flag.half.mask ||| Flag.carry.mask) =
      { f with zero := false, sub := false }.toByte := by
    rcases f with ⟨_ | _, _ | _, _ | _, _ | _⟩ <;> rfl
  simp only [offsetSp, FlagByte.addWithCarry_eq, Prod.map, h]
  rfl

end RegisterFile
end DotMatrix
