import Handheld.Registers

/-!
The arithmetic unit: each operation gives a result and the flags it leaves. Carries and
borrows are those of integer sums and differences of the operands.
-/
namespace Handheld

inductive AluOp
  | add
  | adc
  | sub
  | sbc
  | and
  | xor
  | or
  | cp
  deriving DecidableEq

inductive ShiftOp
  | rlc
  | rrc
  | rl
  | rr
  | sla
  | sra
  | swap
  | srl
  deriving DecidableEq

namespace Arithmetic

/-- The sum of two bytes and a carry, with the carries out of bits 3 and 7. -/
def add (a v : UInt8) (carry : Bool) : UInt8 × Flags :=
  let sum := a.toNat + v.toNat + carry.toNat
  let result := UInt8.ofNat sum
  (result,
    { zero := result == 0
      subtract := false
      halfCarry := decide (15 < a.toNat % 16 + v.toNat % 16 + carry.toNat)
      carry := decide (255 < sum) })

/-- The difference of two bytes and a borrow, with the borrows into bits 4 and 8. -/
def sub (a v : UInt8) (borrow : Bool) : UInt8 × Flags :=
  let result := a - v - UInt8.ofNat borrow.toNat
  (result,
    { zero := result == 0
      subtract := true
      halfCarry := decide (a.toNat % 16 < v.toNat % 16 + borrow.toNat)
      carry := decide (a.toNat < v.toNat + borrow.toNat) })

/-- A bitwise result clears every flag but zero, except that AND sets half carry. -/
def logic (result : UInt8) (halfCarry : Bool) : UInt8 × Flags :=
  (result, { zero := result == 0, subtract := false, halfCarry := halfCarry, carry := false })

/-- Result and flags of an accumulator operation under the carry flag `carry`. -/
def apply (op : AluOp) (carry : Bool) (a v : UInt8) : UInt8 × Flags :=
  match op with
  | .add => add a v false
  | .adc => add a v carry
  | .sub => sub a v false
  | .sbc => sub a v carry
  | .and => logic (a &&& v) true
  | .xor => logic (a ^^^ v) false
  | .or => logic (a ||| v) false
  | .cp => sub a v false

/-- The shifted byte and the bit that leaves it, under the carry flag `carry`. -/
def shifted (op : ShiftOp) (carry : Bool) (v : UInt8) : UInt8 × Bool :=
  let carryIn := UInt8.ofNat carry.toNat
  let top := v &&& 0x80 != 0
  let bottom := v &&& 0x01 != 0
  match op with
  | .rlc => (v <<< 1 ||| v >>> 7, top)
  | .rrc => (v >>> 1 ||| v <<< 7, bottom)
  | .rl => (v <<< 1 ||| carryIn, top)
  | .rr => (v >>> 1 ||| carryIn <<< 7, bottom)
  | .sla => (v <<< 1, top)
  | .sra => (v >>> 1 ||| v &&& 0x80, bottom)
  | .swap => (v <<< 4 ||| v >>> 4, false)
  | .srl => (v >>> 1, bottom)

def shift (op : ShiftOp) (carry : Bool) (v : UInt8) : UInt8 × Flags :=
  let (result, out) := shifted op carry v
  (result, { zero := result == 0, subtract := false, halfCarry := false, carry := out })

/-- The carry flag survives an increment. -/
def increment (flags : Flags) (v : UInt8) : UInt8 × Flags :=
  let result := v + 1
  (result,
    { flags with
      zero := result == 0, subtract := false, halfCarry := decide (v.toNat % 16 = 15) })

/-- The carry flag survives a decrement. -/
def decrement (flags : Flags) (v : UInt8) : UInt8 × Flags :=
  let result := v - 1
  (result,
    { flags with
      zero := result == 0, subtract := true, halfCarry := decide (v.toNat % 16 = 0) })

/-- The sum of two words, with the carries out of bits 11 and 15; zero survives. -/
def addWords (flags : Flags) (a v : UInt16) : UInt16 × Flags :=
  (a + v,
    { flags with
      subtract := false
      halfCarry := decide (4095 < a.toNat % 4096 + v.toNat % 4096)
      carry := decide (65535 < a.toNat + v.toNat) })

/-- A word plus a signed offset, with the carries out of bits 3 and 7 of the low byte. -/
def addOffset (w : UInt16) (offset : UInt8) : UInt16 × Flags :=
  (w + Word.signExtend offset,
    { zero := false
      subtract := false
      halfCarry := decide (15 < w.toNat % 16 + offset.toNat % 16)
      carry := decide (255 < w.toNat % 256 + offset.toNat) })

/-- Tests one bit of a byte; the carry flag survives. -/
def testBit (flags : Flags) (bit : Fin 8) (v : UInt8) : Flags :=
  { flags with
    zero := v &&& (1 <<< UInt8.ofNat bit.val) == 0, subtract := false, halfCarry := true }

/-- What brings a sum or difference of packed decimals back to packed decimal. -/
def decimalCorrection (flags : Flags) (a : UInt8) : UInt8 × Bool :=
  let lowDigit := flags.halfCarry || (!flags.subtract && decide (9 < a.toNat % 16))
  let highDigit := flags.carry || (!flags.subtract && decide (0x99 < a.toNat))
  ((if lowDigit then 0x06 else 0) + (if highDigit then 0x60 else 0), highDigit)

/-- Corrects the accumulator after an operation on packed decimals. -/
def decimalAdjust (flags : Flags) (a : UInt8) : UInt8 × Flags :=
  let (correction, carry) := decimalCorrection flags a
  let result := if flags.subtract then a - correction else a + correction
  (result, { flags with zero := result == 0, halfCarry := false, carry := carry })

end Arithmetic

end Handheld
