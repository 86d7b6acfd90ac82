import Handheld.Proofs.Manual.Arithmetic
import Handheld.Proofs.Manual.Opcode
import Handheld.Proofs.Script
import Handheld.Execute

/-!
What the manual says of each instruction: its length, the script of its bus activity with
the registers that it leaves, and its effect on the enabling of interrupts and on the halt.
A script starts from the registers before the step and names every register that changes;
the program counter has moved past the instruction before anything else reads it.
-/
namespace Handheld.Manual

open Script

/-! The registers of the manual are cells: seven bytes, four flags and two words. -/

/-- The flags as a number, zero first. The four bits below them are always clear. -/
def flagNumber (flags : Flags) : Nat :=
  128 * flags.zero.toNat + 64 * flags.subtract.toNat + 32 * flags.halfCarry.toNat +
    16 * flags.carry.toNat

def flagsOf (v : Nat) : Flags := ⟨v.testBit 7, v.testBit 6, v.testBit 5, v.testBit 4⟩

/-- The byte in a register. -/
def held (r : Registers) : ByteReg → UInt8
  | .a => r.a
  | .f => UInt8.ofNat (flagNumber r.flags)
  | .b => r.b
  | .c => r.c
  | .d => r.d
  | .e => r.e
  | .h => r.h
  | .l => r.l

/-- The word in a pair, its first byte above the second. -/
def heldWord (r : Registers) : WordReg → UInt16
  | .af => Word.join r.a (held r .f)
  | .bc => Word.join r.b r.c
  | .de => Word.join r.d r.e
  | .hl => Word.join r.h r.l
  | .sp => r.sp
  | .pc => r.pc

/-- Leaves a byte in a register and no other. -/
def put (r : Registers) (x : ByteReg) (v : UInt8) : Registers :=
  match x with
  | .a => { r with a := v }
  | .f => { r with flags := flagsOf v.toNat }
  | .b => { r with b := v }
  | .c => { r with c := v }
  | .d => { r with d := v }
  | .e => { r with e := v }
  | .h => { r with h := v }
  | .l => { r with l := v }

/-- Leaves a word in a pair and no other. -/
def putWord (r : Registers) (x : WordReg) (v : UInt16) : Registers :=
  match x with
  | .af => { r with a := Word.high v, flags := flagsOf (Word.low v).toNat }
  | .bc => { r with b := Word.high v, c := Word.low v }
  | .de => { r with d := Word.high v, e := Word.low v }
  | .hl => { r with h := Word.high v, l := Word.low v }
  | .sp => { r with sp := v }
  | .pc => { r with pc := v }

theorem toByte_eq (flags : Flags) : flags.toByte = UInt8.ofNat (flagNumber flags) := by
  obtain ⟨z, n, h, c⟩ := flags
  revert z n h c
  decide

theorem ofByte_eq (v : UInt8) : Flags.ofByte v = flagsOf v.toNat := by
  revert v
  exact forall_byte (by decide +kernel)

/-- The register file is read and written as the cells of the manual are. -/
theorem byte_eq_held (r : Registers) (x : ByteReg) : r.byte x = held r x := by
  cases x with
  | f => exact toByte_eq r.flags
  | _ => rfl

theorem word_eq_heldWord (r : Registers) (x : WordReg) : r.word x = heldWord r x := by
  cases x with
  | af => exact congrArg (Word.join r.a) (toByte_eq r.flags)
  | _ => rfl

theorem setByte_eq_put (r : Registers) (x : ByteReg) (v : UInt8) : r.setByte x v = put r x v := by
  cases x with
  | f => exact congrArg (fun flags => { r with flags := flags }) (ofByte_eq v)
  | _ => rfl

theorem setWord_eq_putWord (r : Registers) (x : WordReg) (v : UInt16) :
    r.setWord x v = putWord r x v := by
  cases x with
  | af =>
    exact congrArg (fun flags => { r with a := Word.high v, flags := flags })
      (ofByte_eq (Word.low v))
  | _ => rfl

/-- The bytes of an instruction, its opcode among them. -/
def length : Instruction → UInt16
  | .stop | .jumpRelative _ | .loadImmediate _ | .aluImmediate _ => 2
  | .storeHigh | .loadHigh | .addToSP | .loadHLFromSP | .extended => 2
  | .storeSP | .loadWord _ | .storeDirect | .loadDirect | .jump _ | .call _ => 3
  | _ => 1

/-- The registers with the program counter past the instruction. -/
def past (i : Instruction) (r : Registers) : Registers := { r with pc := r.pc + length i }

/-- Whether a condition holds under the flags; an absent one does. -/
def holds (flags : Flags) : Option Condition → Bool
  | none => true
  | some .notZero => !flags.zero
  | some .zero => flags.zero
  | some .notCarry => !flags.carry
  | some .carry => flags.carry

/-- The immediate byte. -/
def immediate (r : Registers) (next : UInt8 → Script) : Script := fetch (r.pc + 1) next

/-- The immediate word, the low byte first. -/
def immediateWord (r : Registers) (next : UInt16 → Script) : Script :=
  fetch (r.pc + 1) fun low => fetch (r.pc + 2) fun high => next (Word.join high low)

/-- The value of an operand. -/
def source (o : Operand) (r : Registers) (next : UInt8 → Script) : Script :=
  match o with
  | .reg x => next (held r x)
  | .atHL => read (heldWord r .hl) next

/-- Leaves a value in an operand. -/
def target (o : Operand) (r : Registers) (v : UInt8) : Script :=
  match o with
  | .reg x => done (put r x v)
  | .atHL => write (heldWord r .hl) v (done r)

/-- The address of a pointer and the registers after its use. -/
def pointed (p : Pointer) (r : Registers) : UInt16 × Registers :=
  match p with
  | .bc => (heldWord r .bc, r)
  | .de => (heldWord r .de, r)
  | .hlUp => (heldWord r .hl, putWord r .hl (heldWord r .hl + 1))
  | .hlDown => (heldWord r .hl, putWord r .hl (heldWord r .hl - 1))

/-- Leaves a word on the stack, the high byte first and above the low one. -/
def push (r : Registers) (v : UInt16) (next : Registers → Script) : Script :=
  write (r.sp - 1) (Word.high v)
    (write (r.sp - 2) (Word.low v) (next { r with sp := r.sp - 2 }))

/-- Takes a word from the stack, the low byte first. -/
def pop (r : Registers) (next : UInt16 → Registers → Script) : Script :=
  read r.sp fun low => read (r.sp + 1) fun high =>
    next (Word.join high low) { r with sp := r.sp + 2 }

/-- Leaves the program counter on the stack and jumps. -/
def call (r : Registers) (target : UInt16) : Script :=
  wait 4 (push r r.pc fun r => done { r with pc := target })

/-- Jumps to the word on the stack. -/
def ret (r : Registers) : Script :=
  pop r fun target r => wait 4 (done { r with pc := target })

/-- The accumulator and the flags after an operation; a comparison keeps the accumulator. -/
def accumulated (op : AluOp) (r : Registers) (v : UInt8) : Registers :=
  let (result, flags) := accumulate op r.a.toNat v.toNat r.flags.carry.toNat
  { r with a := if op = .cp then r.a else result, flags := flags }

/-- The address of a byte of the last page. -/
def lastPage (n : UInt8) : UInt16 := UInt16.ofNat (0xFF00 + n.toNat)

/-- The script after the second opcode, by its fields. -/
def extendedScript (op : UInt8) (r : Registers) : Script :=
  let y := yField op
  let o := operands (zField op)
  source o r fun v =>
    match op.toNat / 64 with
    | 0 =>
      let (result, flags) := shift (shiftOps y) v.toNat r.flags.carry.toNat
      target o { r with flags := flags } result
    | 1 => done { r with flags := test r.flags y v.toNat }
    | 2 => target o r (withoutBit y v.toNat)
    | _ => target o r (withBit y v.toNat)

/-- The script after the opcode, from registers `r` whose program counter is still at the
opcode. -/
def operation (i : Instruction) (r : Registers) : Script :=
  let next := past i r
  match i with
  | .nop => done next
  | .stop => immediate r fun _ => done next
  | .halt => done next
  | .storeSP => immediateWord r fun addr =>
    write addr (Word.low next.sp) (write (addr + 1) (Word.high next.sp) (done next))
  | .jumpRelative c => immediate r fun n =>
    if holds next.flags c then wait 4 (done { next with pc := move next.pc (signed n) })
    else done next
  | .loadWord dst => immediateWord r fun n => done (putWord next dst n)
  | .addToHL src =>
    let (result, flags) := sumWords next.flags (heldWord next .hl).toNat (heldWord next src).toNat
    wait 4 (done (putWord { next with flags := flags } .hl result))
  | .storeAt dst =>
    let (addr, next) := pointed dst next
    write addr next.a (done next)
  | .loadFrom src =>
    let (addr, next) := pointed src next
    read addr fun v => done { next with a := v }
  | .incrementWord x => wait 4 (done (putWord next x (heldWord next x + 1)))
  | .decrementWord x => wait 4 (done (putWord next x (heldWord next x - 1)))
  | .increment o => source o next fun v =>
    let (result, flags) := increment next.flags v.toNat
    target o { next with flags := flags } result
  | .decrement o => source o next fun v =>
    let (result, flags) := decrement next.flags v.toNat
    target o { next with flags := flags } result
  | .loadImmediate dst => immediate r fun n => target dst next n
  | .rotateA op =>
    let (result, flags) := shift op next.a.toNat next.flags.carry.toNat
    done { next with a := result, flags := { flags with zero := false } }
  | .decimalAdjust =>
    let (result, flags) := adjust next.flags next.a.toNat
    done { next with a := result, flags := flags }
  | .complement =>
    done { next with
      a := UInt8.ofNat (255 - next.a.toNat)
      flags := { next.flags with subtract := true, halfCarry := true } }
  | .setCarry =>
    done { next with
      flags := { next.flags with subtract := false, halfCarry := false, carry := true } }
  | .flipCarry =>
    done { next with
      flags :=
        { next.flags with subtract := false, halfCarry := false, carry := !next.flags.carry } }
  | .load dst src => source src next fun v => target dst next v
  | .alu op src => source src next fun v => done (accumulated op next v)
  | .aluImmediate op => immediate r fun n => done (accumulated op next n)
  | .ret none => ret next
  | .ret (some c) => wait 4 (if holds next.flags (some c) then ret next else done next)
  | .retEnable => ret next
  | .storeHigh => immediate r fun n => write (lastPage n) next.a (done next)
  | .loadHigh => immediate r fun n => read (lastPage n) fun v => done { next with a := v }
  | .storeHighC => write (lastPage next.c) next.a (done next)
  | .loadHighC => read (lastPage next.c) fun v => done { next with a := v }
  | .storeDirect => immediateWord r fun addr => write addr next.a (done next)
  | .loadDirect => immediateWord r fun addr => read addr fun v => done { next with a := v }
  | .addToSP => immediate r fun n =>
    let (result, flags) := sumOffset next.sp n
    wait 8 (done { next with sp := result, flags := flags })
  | .loadHLFromSP => immediate r fun n =>
    let (result, flags) := sumOffset next.sp n
    wait 4 (done (putWord { next with flags := flags } .hl result))
  | .loadSPFromHL => wait 4 (done { next with sp := heldWord next .hl })
  | .pop dst => pop next fun v next => done (putWord next dst v)
  | .push src => wait 4 (push next (heldWord next src) done)
  | .jump c => immediateWord r fun target =>
    if holds next.flags c then wait 4 (done { next with pc := target }) else done next
  | .jumpHL => done { next with pc := heldWord next .hl }
  | .call c => immediateWord r fun target =>
    if holds next.flags c then call next target else done next
  | .restart slot => call next (UInt16.ofNat (8 * slot.val))
  | .disableInterrupts => done next
  | .enableInterrupts => done next
  | .extended => fetch (r.pc + 1) fun op => extendedScript op next

/-- The whole script of an instruction, its opcode among the bytes taken. -/
def script (i : Instruction) (r : Registers) : Script := fetch r.pc fun _ => operation i r

/-- An enabling of interrupts that was pending takes effect after the instruction that
follows it. -/
def counted (cpu : Cpu) : Cpu :=
  { cpu with ime := cpu.ime || cpu.enableDelay == 1, enableDelay := cpu.enableDelay - 1 }

/-- The effect of an instruction on the enabling of interrupts and on the halt. -/
def control (i : Instruction) (cpu : Cpu) : Cpu :=
  match i with
  | .halt => { counted cpu with halted := true }
  | .disableInterrupts => { cpu with ime := false, enableDelay := 0 }
  | .enableInterrupts => { counted cpu with enableDelay := 1 }
  | .retEnable => { cpu with ime := true, enableDelay := 0 }
  | _ => counted cpu

end Handheld.Manual
