import Handheld.Arithmetic
import Mathlib.Algebra.Ring.Nat

/-!
The arithmetic of the instruction set as a manual tells it: results and flags are those of
sums and differences of integers. The arithmetic unit computes exactly these.
-/
namespace Handheld.Manual

/-- The eight-bit sum of two bytes and a carry. -/
def sum (a v c : Nat) : UInt8 × Flags :=
  (UInt8.ofNat (a + v + c),
    { zero := decide ((a + v + c) % 256 = 0)
      subtract := false
      halfCarry := decide (16 ≤ a % 16 + v % 16 + c)
      carry := decide (256 ≤ a + v + c) })

/-- The eight-bit difference of two bytes and a borrow. -/
def difference (a v c : Int) : UInt8 × Flags :=
  (UInt8.ofInt (a - v - c),
    { zero := decide ((a - v - c) % 256 = 0)
      subtract := true
      halfCarry := decide (a % 16 - v % 16 - c < 0)
      carry := decide (a - v - c < 0) })

def bitwise (result : Nat) (halfCarry : Bool) : UInt8 × Flags :=
  (UInt8.ofNat result,
    { zero := decide (result = 0), subtract := false, halfCarry := halfCarry, carry := false })

/-- An accumulator operation under the carry flag `c`. -/
def accumulate (op : AluOp) (a v c : Nat) : UInt8 × Flags :=
  match op with
  | .add => sum a v 0
  | .adc => sum a v c
  | .sub => difference a v 0
  | .sbc => difference a v c
  | .and => bitwise (a &&& v) true
  | .xor => bitwise (a ^^^ v) false
  | .or => bitwise (a ||| v) false
  | .cp => difference a v 0

/-- The shifted byte and the bit that leaves it, under the carry flag `c`. -/
def shifted (op : ShiftOp) (v c : Nat) : Nat × Nat :=
  match op with
  | .rlc => (2 * (v % 128) + v / 128, v / 128)
  | .rrc => (v / 2 + 128 * (v % 2), v % 2)
  | .rl => (2 * (v % 128) + c, v / 128)
  | .rr => (v / 2 + 128 * c, v % 2)
  | .sla => (2 * (v % 128), v / 128)
  | .sra => (v / 2 + 128 * (v / 128), v % 2)
  | .swap => (16 * (v % 16) + v / 16, 0)
  | .srl => (v / 2, v % 2)

def shift (op : ShiftOp) (v c : Nat) : UInt8 × Flags :=
  let (result, out) := shifted op v c
  (UInt8.ofNat result,
    { zero := decide (result = 0), subtract := false, halfCarry := false,
      carry := decide (out = 1) })

/-- Zero, subtract and half carry are those of a sum with one; carry stays. -/
def increment (flags : Flags) (v : Nat) : UInt8 × Flags :=
  ((sum v 1 0).1, { (sum v 1 0).2 with carry := flags.carry })

/-- Zero, subtract and half carry are those of a difference with one; carry stays. -/
def decrement (flags : Flags) (v : Int) : UInt8 × Flags :=
  ((difference v 1 0).1, { (difference v 1 0).2 with carry := flags.carry })

/-- The sixteen-bit sum of two words; zero stays. -/
def sumWords (flags : Flags) (a v : Nat) : UInt16 × Flags :=
  (UInt16.ofNat (a + v),
    { zero := flags.zero
      subtract := false
      halfCarry := decide (4096 ≤ a % 4096 + v % 4096)
      carry := decide (65536 ≤ a + v) })

/-- A byte as a number in two's complement. -/
def signed (n : UInt8) : Int := if n.toNat < 128 then n.toNat else n.toNat - 256

/-- A word moved by a signed number. -/
def move (w : UInt16) (n : Int) : UInt16 := UInt16.ofInt (w.toNat + n)

/-- A word plus a signed byte. The carries are those of the unsigned sum of the low byte
of the word and the byte. -/
def sumOffset (w : UInt16) (n : UInt8) : UInt16 × Flags :=
  (move w (signed n),
    { zero := false
      subtract := false
      halfCarry := decide (16 ≤ w.toNat % 16 + n.toNat % 16)
      carry := decide (256 ≤ w.toNat % 256 + n.toNat) })

/-- The adjustment adds after a sum and takes away after a difference. A low digit past
nine or a half carry costs six, a high digit past nine or a carry sixty more in
hexadecimal; after a difference only the flags count. -/
def adjust (flags : Flags) (a : Nat) : UInt8 × Flags :=
  let low := flags.halfCarry || (!flags.subtract && decide (9 < a % 16))
  let high := flags.carry || (!flags.subtract && decide (0x99 < a))
  let correction : Nat := (if low then 0x06 else 0) + (if high then 0x60 else 0)
  let result : Int := if flags.subtract then a - correction else a + correction
  (UInt8.ofInt result,
    { zero := decide (result % 256 = 0), subtract := flags.subtract, halfCarry := false,
      carry := high })

/-- Tests a bit; carry stays. -/
def test (flags : Flags) (bit : Fin 8) (v : Nat) : Flags where
  zero := !v.testBit bit
  subtract := false
  halfCarry := true
  carry := flags.carry

def withoutBit (bit : Fin 8) (v : Nat) : UInt8 :=
  UInt8.ofNat (if v.testBit bit then v - 2 ^ bit.val else v)

def withBit (bit : Fin 8) (v : Nat) : UInt8 :=
  UInt8.ofNat (if v.testBit bit then v else v + 2 ^ bit.val)

theorem ofNat_beq_zero (n : Nat) : (UInt8.ofNat n == 0) = decide (n % 256 = 0) := by
  rw [Bool.eq_iff_iff, beq_iff_eq, decide_eq_true_iff, ← UInt8.toNat_inj, UInt8.toNat_ofNat']
  rfl

theorem ofInt_beq_zero (n : Int) : (UInt8.ofInt n == 0) = decide (n % 256 = 0) := by
  rw [UInt8.ofInt, ofNat_beq_zero, decide_eq_decide]
  omega

theorem ofInt_sub (a v : UInt8) (c : Bool) :
    UInt8.ofInt (a.toNat - v.toNat - c.toNat) = a - v - UInt8.ofNat c.toNat := by
  have ha := a.toNat_lt
  have hv := v.toNat_lt
  have hc := Bool.toNat_le c
  apply UInt8.toNat_inj.mp
  rw [UInt8.ofInt, UInt8.toNat_ofNat', UInt8.toNat_sub, UInt8.toNat_sub, UInt8.toNat_ofNat']
  omega

theorem add_eq_sum (a v : UInt8) (c : Bool) :
    Arithmetic.add a v c = sum a.toNat v.toNat c.toNat := by
  simp only [Arithmetic.add, sum, ofNat_beq_zero]
  congr 2

theorem sub_eq_difference (a v : UInt8) (c : Bool) :
    Arithmetic.sub a v c = difference a.toNat v.toNat c.toNat := by
  simp only [Arithmetic.sub, difference, ← ofInt_sub, ofInt_beq_zero, Prod.mk.injEq,
    Flags.mk.injEq, true_and, decide_eq_decide]
  omega

theorem logic_eq_bitwise (v : UInt8) (h : Bool) :
    Arithmetic.logic v h = bitwise v.toNat h := by
  have hzero : (v == 0) = decide (v.toNat = 0) := by
    rw [Bool.eq_iff_iff, beq_iff_eq, decide_eq_true_iff, ← UInt8.toNat_inj]
    rfl
  simp only [Arithmetic.logic, bitwise, UInt8.ofNat_toNat, hzero]

theorem apply_eq_accumulate (op : AluOp) (c : Bool) (a v : UInt8) :
    Arithmetic.apply op c a v = accumulate op a.toNat v.toNat c.toNat := by
  cases op with
  | add => exact add_eq_sum a v false
  | adc => exact add_eq_sum a v c
  | sub => exact sub_eq_difference a v false
  | sbc => exact sub_eq_difference a v c
  | and =>
    rw [accumulate, ← UInt8.toNat_and]
    exact logic_eq_bitwise _ _
  | xor =>
    rw [accumulate, ← UInt8.toNat_xor]
    exact logic_eq_bitwise _ _
  | or =>
    rw [accumulate, ← UInt8.toNat_or]
    exact logic_eq_bitwise _ _
  | cp => exact sub_eq_difference a v false

theorem shift_eq (op : ShiftOp) (c : Bool) (v : UInt8) :
    Arithmetic.shift op c v = shift op v.toNat c.toNat := by
  revert c v
  cases op <;> exact fun c => forall_byte (by revert c; decide +kernel)

theorem increment_eq (flags : Flags) (v : UInt8) :
    Arithmetic.increment flags v = increment flags v.toNat := by
  have hsum : sum v.toNat 1 0 = Arithmetic.add v 1 false := (add_eq_sum v 1 false).symm
  have hresult : UInt8.ofNat (v.toNat + (1 : UInt8).toNat + false.toNat) = v + 1 := by
    simp [UInt8.ofNat_add]
  simp only [increment, hsum, Arithmetic.increment, Arithmetic.add, hresult, Prod.mk.injEq,
    Flags.mk.injEq, true_and, decide_eq_decide]
  simp
  omega

theorem decrement_eq (flags : Flags) (v : UInt8) :
    Arithmetic.decrement flags v = decrement flags v.toNat := by
  have hdifference : difference v.toNat 1 0 = Arithmetic.sub v 1 false :=
    (sub_eq_difference v 1 false).symm
  simp [decrement, hdifference, Arithmetic.decrement, Arithmetic.sub]

theorem addWords_eq (flags : Flags) (a v : UInt16) :
    Arithmetic.addWords flags a v = sumWords flags a.toNat v.toNat := by
  simp only [Arithmetic.addWords, sumWords, UInt16.ofNat_add, UInt16.ofNat_toNat]
  congr 2

theorem add_signExtend (w : UInt16) (n : UInt8) :
    w + Word.signExtend n = move w (signed n) := by
  have hw := w.toNat_lt
  have hn := n.toNat_lt
  have hsmall : n < 0x80 ↔ n.toNat < 128 := UInt8.lt_iff_toNat_lt
  apply UInt16.toNat_inj.mp
  rw [move, UInt16.ofInt, UInt16.toNat_ofNat', UInt16.toNat_add, Word.signExtend, signed]
  by_cases h : n.toNat < 128
  · rw [if_pos (hsmall.mpr h), if_pos h, UInt8.toNat_toUInt16]
    omega
  · rw [if_neg (mt hsmall.mp h), if_neg h, UInt16.toNat_add, UInt8.toNat_toUInt16]
    simp
    omega

theorem addOffset_eq (w : UInt16) (n : UInt8) : Arithmetic.addOffset w n = sumOffset w n := by
  simp only [Arithmetic.addOffset, sumOffset, add_signExtend]
  congr 2

theorem ofInt_add (a v : UInt8) : UInt8.ofInt (a.toNat + v.toNat) = a + v := by
  apply UInt8.toNat_inj.mp
  rw [UInt8.ofInt, UInt8.toNat_ofNat', UInt8.toNat_add]
  omega

theorem toNat_correction (low high : Bool) :
    ((if low then 0x06 else 0) + (if high then 0x60 else 0) : UInt8).toNat =
      (if low then 0x06 else 0) + (if high then 0x60 else 0) := by
  cases low <;> cases high <;> rfl

theorem decimalAdjust_eq (flags : Flags) (a : UInt8) :
    Arithmetic.decimalAdjust flags a = adjust flags a.toNat := by
  simp only [Arithmetic.decimalAdjust, Arithmetic.decimalCorrection, adjust, ← toNat_correction]
  generalize (flags.halfCarry || (!flags.subtract && decide (9 < a.toNat % 16))) = low
  generalize (flags.carry || (!flags.subtract && decide (0x99 < a.toNat))) = high
  generalize ((if low then 0x06 else 0) + (if high then 0x60 else 0) : UInt8) = v
  cases flags.subtract with
  | false => simp only [Bool.false_eq_true, if_false, ofInt_add, ← ofInt_beq_zero]
  | true =>
    have hsub : UInt8.ofInt (a.toNat - v.toNat) = a - v := by
      simpa using ofInt_sub a v false
    simp only [if_true, hsub, ← ofInt_beq_zero]

theorem testBit_eq (flags : Flags) (bit : Fin 8) (v : UInt8) :
    Arithmetic.testBit flags bit v = test flags bit v.toNat := by
  have hzero : ∀ v : UInt8, ∀ bit : Fin 8,
      (v &&& (1 <<< UInt8.ofNat bit.val) == 0) = !v.toNat.testBit bit :=
    forall_byte (by decide +kernel)
  simp only [Arithmetic.testBit, test, hzero]

theorem and_not_bit (bit : Fin 8) (v : UInt8) :
    v &&& ~~~(1 <<< UInt8.ofNat bit.val) = withoutBit bit v.toNat := by
  revert bit v
  exact fun bit => forall_byte (by revert bit; decide +kernel)

theorem or_bit (bit : Fin 8) (v : UInt8) :
    v ||| 1 <<< UInt8.ofNat bit.val = withBit bit v.toNat := by
  revert bit v
  exact fun bit => forall_byte (by revert bit; decide +kernel)

theorem not_eq (v : UInt8) : ~~~v = UInt8.ofNat (255 - v.toNat) := by
  revert v
  exact forall_byte (by decide +kernel)

end Handheld.Manual
