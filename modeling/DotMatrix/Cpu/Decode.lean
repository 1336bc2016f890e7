import DotMatrix.Cpu.Instruction

namespace DotMatrix

def Place.ofCode : Nat → Place
  | 0 => .reg .b
  | 1 => .reg .c
  | 2 => .reg .d
  | 3 => .reg .e
  | 4 => .reg .h
  | 5 => .reg .l
  | 6 => .memHl
  | _ => .reg .a

def Pair.ofCode : Nat → Pair
  | 0 => bc
  | 1 => de
  | 2 => hl
  | _ => sp

-- On the stack AF takes the place of SP.
def Pair.ofStackCode : Nat → Pair
  | 0 => bc
  | 1 => de
  | 2 => hl
  | _ => af

def Condition.ofCode : Nat → Condition
  | 0 => nz
  | 1 => z
  | 2 => nc
  | _ => c

def AluOp.ofCode : Nat → AluOp
  | 0 => add
  | 1 => adc
  | 2 => sub
  | 3 => sbc
  | 4 => and
  | 5 => xor
  | 6 => or
  | _ => cp

def Address.ofCode : Nat → Address
  | 0 => bc
  | 1 => de
  | 2 => hlInc
  | _ => hlDec

def Shift.ofCode : Nat → Shift
  | 0 => rotate .rlc
  | 1 => rotate .rrc
  | 2 => rotate .rl
  | 3 => rotate .rr
  | 4 => sla
  | 5 => sra
  | 6 => swap
  | _ => srl

namespace Instruction

-- The first quarter: loads of constants, word arithmetic, short jumps, increments.
def decodeFirst (y z : Nat) : Instruction :=
  match z with
  | 0 =>
    match y with
    | 0 => nop
    | 1 => storeSp
    | 2 => stop
    | 3 => jumpRelative none
    | _ => jumpRelative (some (.ofCode (y - 4)))
  | 1 => if y % 2 = 0 then loadPair (.ofCode (y / 2)) else addHl (.ofCode (y / 2))
  | 2 => if y % 2 = 0 then storeA (.ofCode (y / 2)) else loadA (.ofCode (y / 2))
  | 3 => if y % 2 = 0 then incPair (.ofCode (y / 2)) else decPair (.ofCode (y / 2))
  | 4 => inc (.ofCode y)
  | 5 => dec (.ofCode y)
  | 6 => load (.ofCode y) .imm
  | _ =>
    match y with
    | 0 => rotateA .rlc
    | 1 => rotateA .rrc
    | 2 => rotateA .rl
    | 3 => rotateA .rr
    | 4 => daa
    | 5 => cpl
    | 6 => scf
    | _ => ccf

-- The last quarter: long jumps, the stack, device registers. Eleven opcodes mean nothing.
def decodeLast (y z : Nat) : Option Instruction :=
  match z with
  | 0 =>
    match y with
    | 4 => storeA .pageImm
    | 5 => offsetToSp
    | 6 => loadA .pageImm
    | 7 => offsetToHl
    | _ => ret (some (.ofCode y))
  | 1 =>
    match y with
    | 1 => ret none
    | 3 => reti
    | 5 => jumpHl
    | 7 => copyHlToSp
    | _ => pop (.ofStackCode (y / 2))
  | 2 =>
    match y with
    | 4 => storeA .pageC
    | 5 => storeA .imm
    | 6 => loadA .pageC
    | 7 => loadA .imm
    | _ => jump (some (.ofCode y))
  | 3 =>
    match y with
    | 0 => jump none
    | 6 => di
    | 7 => ei
    | _ => none
  | 4 => if y < 4 then call (some (.ofCode y)) else none
  | 5 =>
    if y % 2 = 0 then push (.ofStackCode (y / 2))
    else if y = 1 then call none
    else none
  | 6 => alu (.ofCode y) .imm
  | _ => rst (.ofNat 8 y)

-- The byte that announces an opcode of the second table.
def secondTable : UInt8 := 0xcb

-- The instruction of an opcode of the first table, if it has one. An opcode is read as three
-- fields: two bits for its quarter of the table, then three bits for its row and three for its
-- column.
def decode (opcode : UInt8) : Option Instruction :=
  let y := bitField opcode 3 3
  let z := bitField opcode 0 3
  match bitField opcode 6 2 with
  | 0 => decodeFirst y z
  | 1 => if y = 6 ∧ z = 6 then halt else load (.ofCode y) (.place (.ofCode z))
  | 2 => alu (.ofCode y) (.place (.ofCode z))
  | _ => decodeLast y z

-- The instruction of an opcode of the second table: all of them work on single bits.
def decodeSecond (opcode : UInt8) : Instruction :=
  let y := bitField opcode 3 3
  let p := Place.ofCode (bitField opcode 0 3)
  match bitField opcode 6 2 with
  | 0 => shift (.ofCode y) p
  | 1 => bit (.ofNat 8 y) p
  | 2 => res (.ofNat 8 y) p
  | _ => set (.ofNat 8 y) p

end Instruction
end DotMatrix
