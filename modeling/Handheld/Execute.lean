import Handheld.Core
import Handheld.Instruction

/-!
What each instruction does. Operands are fetched, memory is accessed and internal delays
pass in the order in which the hardware spends its cycles.
-/
namespace Handheld

variable {V A : Type} [VideoUnit V] [AudioUnit A]

def machineCycle : Nat := 4

def highPage (offset : UInt8) : UInt16 := Word.join 0xFF offset

namespace Operand

def read : Operand → Exec V A UInt8
  | reg r => return (← Exec.regs).byte r
  | atHL => do Exec.load ((← Exec.regs).word .hl)

def write (v : UInt8) : Operand → Exec V A Unit
  | reg r => Exec.setByte r v
  | atHL => do Exec.store ((← Exec.regs).word .hl) v

end Operand

/-- The address of a pointer, moving HL along where the pointer does. -/
def Pointer.address (p : Pointer) : Exec V A UInt16 := do
  let r ← Exec.regs
  match p with
  | .bc => return r.word .bc
  | .de => return r.word .de
  | .hlUp =>
    Exec.setWord .hl (r.word .hl + 1)
    return r.word .hl
  | .hlDown =>
    Exec.setWord .hl (r.word .hl - 1)
    return r.word .hl

/-- Whether an optional condition holds; an absent one does. -/
def conditionHolds (condition : Option Condition) : Exec V A Bool := do
  let r ← Exec.regs
  return condition.all (·.holds r.flags)

namespace ExtendedInstruction

def run : ExtendedInstruction → Exec V A Unit
  | shift op operand => do
    let v ← operand.read
    let (result, flags) := Arithmetic.shift op (← Exec.regs).flags.carry v
    Exec.setFlags flags
    operand.write result
  | test bit operand => do
    let v ← operand.read
    Exec.setFlags (Arithmetic.testBit (← Exec.regs).flags bit v)
  | clear bit operand => do
    let v ← operand.read
    operand.write (v &&& ~~~(1 <<< UInt8.ofNat bit.val))
  | set bit operand => do
    let v ← operand.read
    operand.write (v ||| 1 <<< UInt8.ofNat bit.val)

end ExtendedInstruction

namespace Instruction

/-- An accumulator operation; a comparison leaves only its flags. -/
def runAlu (op : AluOp) (v : UInt8) : Exec V A Unit :=
  Exec.modifyRegs fun r =>
    let (result, flags) := Arithmetic.apply op r.flags.carry r.a v
    { r with a := if op = .cp then r.a else result, flags := flags }

/-- Leaves the address of the next instruction on the stack and jumps. -/
def runCall (target : UInt16) : Exec V A Unit := do
  Exec.idle machineCycle
  Exec.push (← Exec.regs).pc
  Exec.setWord .pc target

def runReturn : Exec V A Unit := do
  let target ← Exec.pop
  Exec.setWord .pc target
  Exec.idle machineCycle

def run : Instruction → Exec V A Unit
  | nop => pure ()
  | stop => do
    let _ ← Exec.fetch
  | halt => Exec.modifyCpu fun cpu => { cpu with halted := true }
  | storeSP => do
    let addr ← Exec.fetchWord
    Exec.storeWord addr (← Exec.regs).sp
  | jumpRelative condition => do
    let offset ← Exec.fetch
    if ← conditionHolds condition then
      Exec.setWord .pc ((← Exec.regs).pc + Word.signExtend offset)
      Exec.idle machineCycle
  | loadWord dst => do
    let v ← Exec.fetchWord
    Exec.setWord dst v
  | addToHL src => do
    Exec.modifyRegs fun r =>
      let (result, flags) := Arithmetic.addWords r.flags (r.word .hl) (r.word src)
      { r with flags := flags }.setWord .hl result
    Exec.idle machineCycle
  | storeAt dst => do
    let addr ← dst.address
    Exec.store addr (← Exec.regs).a
  | loadFrom src => do
    let addr ← src.address
    let v ← Exec.load addr
    Exec.setByte .a v
  | incrementWord r => do
    Exec.modifyRegs fun regs => regs.setWord r (regs.word r + 1)
    Exec.idle machineCycle
  | decrementWord r => do
    Exec.modifyRegs fun regs => regs.setWord r (regs.word r - 1)
    Exec.idle machineCycle
  | increment operand => do
    let v ← operand.read
    let (result, flags) := Arithmetic.increment (← Exec.regs).flags v
    Exec.setFlags flags
    operand.write result
  | decrement operand => do
    let v ← operand.read
    let (result, flags) := Arithmetic.decrement (← Exec.regs).flags v
    Exec.setFlags flags
    operand.write result
  | loadImmediate dst => do
    let v ← Exec.fetch
    dst.write v
  | rotateA op => Exec.modifyRegs fun r =>
    let (result, flags) := Arithmetic.shift op r.flags.carry r.a
    { r with a := result, flags := { flags with zero := false } }
  | decimalAdjust => Exec.modifyRegs fun r =>
    let (result, flags) := Arithmetic.decimalAdjust r.flags r.a
    { r with a := result, flags := flags }
  | complement => Exec.modifyRegs fun r =>
    { r with a := ~~~r.a, flags := { r.flags with subtract := true, halfCarry := true } }
  | setCarry => Exec.modifyRegs fun r =>
    { r with flags := { r.flags with subtract := false, halfCarry := false, carry := true } }
  | flipCarry => Exec.modifyRegs fun r =>
    { r with
      flags := { r.flags with subtract := false, halfCarry := false, carry := !r.flags.carry } }
  | load dst src => do
    let v ← src.read
    dst.write v
  | alu op src => do
    let v ← src.read
    runAlu op v
  | aluImmediate op => do
    let v ← Exec.fetch
    runAlu op v
  | ret none => runReturn
  | ret (some condition) => do
    Exec.idle machineCycle
    if ← conditionHolds (some condition) then
      runReturn
  | retEnable => do
    runReturn
    Exec.modifyCpu fun cpu => { cpu with ime := true, enableDelay := 0 }
  | storeHigh => do
    let offset ← Exec.fetch
    Exec.store (highPage offset) (← Exec.regs).a
  | loadHigh => do
    let offset ← Exec.fetch
    let v ← Exec.load (highPage offset)
    Exec.setByte .a v
  | storeHighC => do
    let r ← Exec.regs
    Exec.store (highPage r.c) r.a
  | loadHighC => do
    let v ← Exec.load (highPage (← Exec.regs).c)
    Exec.setByte .a v
  | storeDirect => do
    let addr ← Exec.fetchWord
    Exec.store addr (← Exec.regs).a
  | loadDirect => do
    let addr ← Exec.fetchWord
    let v ← Exec.load addr
    Exec.setByte .a v
  | addToSP => do
    let offset ← Exec.fetch
    Exec.modifyRegs fun r =>
      let (result, flags) := Arithmetic.addOffset r.sp offset
      { r with sp := result, flags := flags }
    Exec.idle (2 * machineCycle)
  | loadHLFromSP => do
    let offset ← Exec.fetch
    Exec.modifyRegs fun r =>
      let (result, flags) := Arithmetic.addOffset r.sp offset
      { r with flags := flags }.setWord .hl result
    Exec.idle machineCycle
  | loadSPFromHL => do
    Exec.modifyRegs fun r => r.setWord .sp (r.word .hl)
    Exec.idle machineCycle
  | pop dst => do
    let v ← Exec.pop
    Exec.setWord dst v
  | push src => do
    Exec.idle machineCycle
    Exec.push ((← Exec.regs).word src)
  | jump condition => do
    let target ← Exec.fetchWord
    if ← conditionHolds condition then
      Exec.setWord .pc target
      Exec.idle machineCycle
  | jumpHL => Exec.modifyRegs fun r => r.setWord .pc (r.word .hl)
  | call condition => do
    let target ← Exec.fetchWord
    if ← conditionHolds condition then
      runCall target
  | restart slot => runCall (UInt16.ofNat (8 * slot.val))
  | disableInterrupts => Exec.modifyCpu fun cpu => { cpu with ime := false, enableDelay := 0 }
  | enableInterrupts => Exec.modifyCpu fun cpu => { cpu with enableDelay := 2 }
  | extended => do
    let opcode ← Exec.fetch
    (ExtendedInstruction.decode opcode).run

end Instruction

end Handheld
