import Handheld.Arithmetic

/-!
The instruction set as data. An opcode is read as the fields x (its two top bits), y and z
(three bits each), y in turn as p and q (two bits and one). Eleven opcodes are unused, and
one announces a second opcode, which is never unused.
-/
namespace Handheld

/-- A byte operand: a register or the memory that HL points at. -/
inductive Operand
  | reg (r : ByteReg)
  | atHL
  deriving DecidableEq

inductive Condition
  | notZero
  | zero
  | notCarry
  | carry
  deriving DecidableEq

def Condition.holds (flags : Flags) : Condition → Bool
  | notZero => !flags.zero
  | zero => flags.zero
  | notCarry => !flags.carry
  | carry => flags.carry

/-- A pointer of the accumulator's indirect loads; two of them move HL along. -/
inductive Pointer
  | bc
  | de
  | hlUp
  | hlDown
  deriving DecidableEq

/-- The instructions of one opcode. Where a condition is optional, its absence means that
the jump, call or return is always taken. -/
inductive Instruction
  | nop
  | stop
  | halt
  | storeSP
  | jumpRelative (condition : Option Condition)
  | loadWord (dst : WordReg)
  | addToHL (src : WordReg)
  | storeAt (dst : Pointer)
  | loadFrom (src : Pointer)
  | incrementWord (r : WordReg)
  | decrementWord (r : WordReg)
  | increment (operand : Operand)
  | decrement (operand : Operand)
  | loadImmediate (dst : Operand)
  | rotateA (op : ShiftOp)
  | decimalAdjust
  | complement
  | setCarry
  | flipCarry
  | load (dst src : Operand)
  | alu (op : AluOp) (src : Operand)
  | aluImmediate (op : AluOp)
  | ret (condition : Option Condition)
  | retEnable
  | storeHigh
  | loadHigh
  | storeHighC
  | loadHighC
  | storeDirect
  | loadDirect
  | addToSP
  | loadHLFromSP
  | loadSPFromHL
  | pop (dst : WordReg)
  | push (src : WordReg)
  | jump (condition : Option Condition)
  | jumpHL
  | call (condition : Option Condition)
  | restart (slot : Fin 8)
  | disableInterrupts
  | enableInterrupts
  | extended
  deriving DecidableEq

/-- The instructions of the second opcode. -/
inductive ExtendedInstruction
  | shift (op : ShiftOp) (operand : Operand)
  | test (bit : Fin 8) (operand : Operand)
  | clear (bit : Fin 8) (operand : Operand)
  | set (bit : Fin 8) (operand : Operand)
  deriving DecidableEq

def Operand.ofField : Fin 8 → Operand
  | 0 => .reg .b
  | 1 => .reg .c
  | 2 => .reg .d
  | 3 => .reg .e
  | 4 => .reg .h
  | 5 => .reg .l
  | 6 => .atHL
  | 7 => .reg .a

/-- The condition that the two low bits of a field name. -/
def Condition.ofField (y : Fin 8) : Condition :=
  match y.val % 4 with
  | 0 => .notZero
  | 1 => .zero
  | 2 => .notCarry
  | _ => .carry

def AluOp.ofField : Fin 8 → AluOp
  | 0 => .add
  | 1 => .adc
  | 2 => .sub
  | 3 => .sbc
  | 4 => .and
  | 5 => .xor
  | 6 => .or
  | 7 => .cp

def ShiftOp.ofField : Fin 8 → ShiftOp
  | 0 => .rlc
  | 1 => .rrc
  | 2 => .rl
  | 3 => .rr
  | 4 => .sla
  | 5 => .sra
  | 6 => .swap
  | 7 => .srl

/-- The pair that the p part of a field names in arithmetic. -/
def WordReg.ofField (y : Fin 8) : WordReg :=
  match y.val / 2 with
  | 0 => .bc
  | 1 => .de
  | 2 => .hl
  | _ => .sp

/-- The pair that the p part of a field names on the stack. -/
def WordReg.ofStackField (y : Fin 8) : WordReg :=
  match y.val / 2 with
  | 0 => .bc
  | 1 => .de
  | 2 => .hl
  | _ => .af

def Pointer.ofField (y : Fin 8) : Pointer :=
  match y.val / 2 with
  | 0 => .bc
  | 1 => .de
  | 2 => .hlUp
  | _ => .hlDown

def yField (opcode : UInt8) : Fin 8 := ⟨opcode.toNat / 8 % 8, Nat.mod_lt _ (by decide)⟩

def zField (opcode : UInt8) : Fin 8 := ⟨opcode.toNat % 8, Nat.mod_lt _ (by decide)⟩

namespace Instruction

def ofMiscField : Fin 8 → Instruction
  | 0 => nop
  | 1 => storeSP
  | 2 => stop
  | 3 => jumpRelative none
  | 4 => jumpRelative (some .notZero)
  | 5 => jumpRelative (some .zero)
  | 6 => jumpRelative (some .notCarry)
  | 7 => jumpRelative (some .carry)

def ofAccumulatorField : Fin 8 → Instruction
  | 4 => decimalAdjust
  | 5 => complement
  | 6 => setCarry
  | 7 => flipCarry
  | y => rotateA (.ofField y)

/-- The opcodes whose x field is 0. -/
def decodeLow (y z : Fin 8) : Instruction :=
  let even := y.val % 2 = 0
  match z with
  | 0 => ofMiscField y
  | 1 => if even then loadWord (.ofField y) else addToHL (.ofField y)
  | 2 => if even then storeAt (.ofField y) else loadFrom (.ofField y)
  | 3 => if even then incrementWord (.ofField y) else decrementWord (.ofField y)
  | 4 => increment (.ofField y)
  | 5 => decrement (.ofField y)
  | 6 => loadImmediate (.ofField y)
  | 7 => ofAccumulatorField y

def ofReturnField : Fin 8 → Instruction
  | 4 => storeHigh
  | 5 => addToSP
  | 6 => loadHigh
  | 7 => loadHLFromSP
  | y => ret (some (.ofField y))

def ofPopField : Fin 8 → Instruction
  | 1 => ret none
  | 3 => retEnable
  | 5 => jumpHL
  | 7 => loadSPFromHL
  | y => pop (.ofStackField y)

def ofJumpField : Fin 8 → Instruction
  | 4 => storeHighC
  | 5 => storeDirect
  | 6 => loadHighC
  | 7 => loadDirect
  | y => jump (some (.ofField y))

def ofControlField : Fin 8 → Option Instruction
  | 0 => some (jump none)
  | 1 => some extended
  | 6 => some disableInterrupts
  | 7 => some enableInterrupts
  | _ => none

def ofCallField (y : Fin 8) : Option Instruction :=
  if y.val ≤ 3 then some (call (some (.ofField y))) else none

def ofPushField : Fin 8 → Option Instruction
  | 1 => some (call none)
  | 3 => none
  | 5 => none
  | 7 => none
  | y => some (push (.ofStackField y))

/-- The opcodes whose x field is 3. -/
def decodeHigh (y z : Fin 8) : Option Instruction :=
  match z with
  | 0 => some (ofReturnField y)
  | 1 => some (ofPopField y)
  | 2 => some (ofJumpField y)
  | 3 => ofControlField y
  | 4 => ofCallField y
  | 5 => ofPushField y
  | 6 => some (aluImmediate (.ofField y))
  | 7 => some (restart y)

/-- A load of memory into itself is the halt instruction. -/
def decodeLoad (y z : Fin 8) : Instruction :=
  if y = 6 ∧ z = 6 then halt else load (.ofField y) (.ofField z)

def decode (opcode : UInt8) : Option Instruction :=
  let y := yField opcode
  let z := zField opcode
  match opcode.toNat / 64 with
  | 0 => some (decodeLow y z)
  | 1 => some (decodeLoad y z)
  | 2 => some (alu (.ofField y) (.ofField z))
  | _ => decodeHigh y z

end Instruction

def ExtendedInstruction.decode (opcode : UInt8) : ExtendedInstruction :=
  let y := yField opcode
  let operand := Operand.ofField (zField opcode)
  match opcode.toNat / 64 with
  | 0 => shift (.ofField y) operand
  | 1 => test y operand
  | 2 => clear y operand
  | _ => set y operand

end Handheld
