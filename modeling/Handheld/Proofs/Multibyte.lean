import Handheld.Console
import Mathlib.Data.Nat.Digits.Defs
import Mathlib.Tactic.Ring

/-!
Numbers of many bytes. The accumulator holds one byte at a time, and the carry flag is all that one
byte leaves to the next. Adding or subtracting two numbers byte by byte, from the lowest on, gives
the bytes of their sum or difference, and the last carry tells whether it fits. With the decimal
adjustment after each byte the same holds of packed decimals.
-/
namespace Handheld

/-- Bytes as the digits of numbers. -/
structure Numerals where
  base : Nat
  IsDigit : UInt8 → Prop
  value : UInt8 → Nat
  /-- The digit of a value below the base. -/
  digit : Nat → UInt8
  one_lt_base : 1 < base
  value_lt : ∀ {v}, IsDigit v → value v < base
  digit_value : ∀ {v}, IsDigit v → digit (value v) = v

namespace Numerals

/-- Every byte is a digit. -/
def binary : Numerals where
  base := 256
  IsDigit _ := True
  value := UInt8.toNat
  digit := UInt8.ofNat
  one_lt_base := by decide
  value_lt _ := UInt8.toNat_lt _
  digit_value _ := UInt8.ofNat_toNat

/-- A byte holds two decimal digits, the higher one in its upper half. -/
def packedDecimal : Numerals where
  base := 100
  IsDigit v := v.toNat / 16 < 10 ∧ v.toNat % 16 < 10
  value v := 10 * (v.toNat / 16) + v.toNat % 16
  digit n := UInt8.ofNat (16 * (n / 10) + n % 10)
  one_lt_base := by decide
  value_lt h := by omega
  digit_value {v} h := by
    have hlt := v.toNat_lt
    apply UInt8.toNat_inj.mp
    rw [UInt8.toNat_ofNat']
    omega

variable (N : Numerals)

/-- The number whose digits are given, the lowest first. -/
def read (bytes : List UInt8) : Nat := Nat.ofDigits N.base (bytes.map N.value)

/-- The `count` low digits of a number, the lowest first. -/
def write (n : Nat) : Nat → List UInt8
  | 0 => []
  | count + 1 => N.digit (n % N.base) :: write (n / N.base) count

def AreDigits (bytes : List UInt8) : Prop := ∀ v ∈ bytes, N.IsDigit v

variable {N}

theorem read_cons (v : UInt8) (bytes : List UInt8) :
    N.read (v :: bytes) = N.value v + N.base * N.read bytes := rfl

theorem AreDigits.cons {v : UInt8} {bytes : List UInt8} (hv : N.IsDigit v)
    (hbytes : N.AreDigits bytes) : N.AreDigits (v :: bytes) :=
  List.forall_mem_cons.mpr ⟨hv, hbytes⟩

theorem AreDigits.of_cons {v : UInt8} {bytes : List UInt8} (h : N.AreDigits (v :: bytes)) :
    N.IsDigit v ∧ N.AreDigits bytes := List.forall_mem_cons.mp h

theorem AreDigits.read_lt {bytes : List UInt8} (h : N.AreDigits bytes) :
    N.read bytes < N.base ^ bytes.length := by
  have hvalues : ∀ n ∈ bytes.map N.value, n < N.base := by
    intro n hn
    obtain ⟨v, hv, rfl⟩ := List.mem_map.mp hn
    exact N.value_lt (h v hv)
  have hlt := Nat.ofDigits_lt_base_pow_length N.one_lt_base hvalues
  rwa [List.length_map] at hlt

/-- Digits are determined by their number. -/
theorem AreDigits.write_read {bytes : List UInt8} (h : N.AreDigits bytes) :
    N.write (N.read bytes) bytes.length = bytes := by
  induction bytes with
  | nil => rfl
  | cons v bytes ih =>
    obtain ⟨hv, hbytes⟩ := h.of_cons
    have hvalue := N.value_lt hv
    have hpos : 0 < N.base := Nat.zero_lt_of_lt hvalue
    have hlow : (N.value v + N.base * N.read bytes) % N.base = N.value v := by
      rw [Nat.add_mul_mod_self_left, Nat.mod_eq_of_lt hvalue]
    have hrest : (N.value v + N.base * N.read bytes) / N.base = N.read bytes := by
      rw [Nat.add_mul_div_left _ _ hpos, Nat.div_eq_of_lt hvalue, Nat.zero_add]
    rw [List.length_cons, write, read_cons, hlow, hrest, N.digit_value hv, ih hbytes]

end Numerals

namespace Arithmetic

theorem toNat_decide (p : Prop) [Decidable p] :
    p ∧ (decide p).toNat = 1 ∨ ¬p ∧ (decide p).toNat = 0 := by
  by_cases h : p
  · exact .inl ⟨h, congrArg Bool.toNat (decide_eq_true h)⟩
  · exact .inr ⟨h, congrArg Bool.toNat (decide_eq_false h)⟩

/-- A sum is worth its byte and its carry. -/
theorem toNat_add (a v : UInt8) (c : Bool) :
    (add a v c).1.toNat + 256 * (add a v c).2.carry.toNat =
      a.toNat + v.toNat + c.toNat := by
  have ha := a.toNat_lt
  have hv := v.toNat_lt
  have hc := Bool.toNat_le c
  have hover := toNat_decide (255 < a.toNat + v.toNat + c.toNat)
  simp only [add, UInt8.toNat_ofNat']
  omega

/-- A difference is worth its byte less what is borrowed. -/
theorem toNat_sub (a v : UInt8) (c : Bool) :
    (sub a v c).1.toNat + v.toNat + c.toNat =
      a.toNat + 256 * (sub a v c).2.carry.toNat := by
  have ha := a.toNat_lt
  have hv := v.toNat_lt
  have hc := Bool.toNat_le c
  have hborrow := toNat_decide (a.toNat < v.toNat + c.toNat)
  simp only [sub, UInt8.toNat_sub, UInt8.toNat_ofNat']
  omega

/-- The adjustment of a byte whose low and high digit are known to need correction or not. -/
theorem decimalAdjust_of (flags : Flags) (a : UInt8) {low high : Bool}
    (hlow : (flags.halfCarry || (!flags.subtract && decide (9 < a.toNat % 16))) = low)
    (hhigh : (flags.carry || (!flags.subtract && decide (0x99 < a.toNat))) = high) :
    (decimalAdjust flags a).1.toNat =
        (if flags.subtract then a.toNat + 256 - (6 * low.toNat + 96 * high.toNat)
          else a.toNat + (6 * low.toNat + 96 * high.toNat)) % 256 ∧
      (decimalAdjust flags a).2.carry = high := by
  have ha := a.toNat_lt
  have hcorrection : ((if low then 0x06 else 0) + (if high then 0x60 else 0) : UInt8).toNat =
      6 * low.toNat + 96 * high.toNat := by
    cases low <;> cases high <;> rfl
  have hle := Bool.toNat_le low
  have hle' := Bool.toNat_le high
  refine ⟨?_, hhigh⟩
  simp only [decimalAdjust, decimalCorrection, hlow, hhigh]
  cases flags.subtract with
  | false =>
    change (a + _).toNat = (a.toNat + _) % 256
    rw [UInt8.toNat_add, hcorrection]
  | true =>
    change (a - _).toNat = (a.toNat + 256 - _) % 256
    rw [UInt8.toNat_sub, hcorrection]
    omega

end Arithmetic

variable {V A : Type}

namespace Core

def carry (s : Core V A) : Bool := s.cpu.regs.flags.carry

end Core

namespace Exec

/-- Works through two numbers byte by byte. Each byte of the first one is brought to the
accumulator, worked on with the byte of the other one and taken from there, and something else may
be done before the next byte. -/
def bytewise (work : UInt8 → Exec V A Unit) (between : Exec V A Unit) :
    List UInt8 → List UInt8 → Exec V A (List UInt8)
  | x :: xs, y :: ys => do
    setByte .a x
    work y
    let r ← regs
    between
    return r.a :: (← bytewise work between xs ys)
  | _, _ => return []

/-- An operation with the accumulator that is followed by the decimal adjustment. -/
def adjusted [VideoUnit V] [AudioUnit A] (op : AluOp) (v : UInt8) : Exec V A Unit := do
  Instruction.runAlu op v
  Instruction.decimalAdjust.run

/-- What is done between two bytes leaves the carry flag to the next one. -/
def KeepsCarry (between : Exec V A Unit) : Prop := ∀ s, (between s).2.carry = s.carry

end Exec

open Exec

namespace Numerals

variable (N : Numerals)

/-- The accumulator becomes a digit of what a byte and the carry add to it, or of what they take
away if the sign is negative, and the carry flag tells what is left to the next digit. -/
def Chains (sign : Int) (work : UInt8 → Exec V A Unit) : Prop :=
  ∀ (s : Core V A) (y : UInt8), N.IsDigit s.cpu.regs.a → N.IsDigit y →
    N.IsDigit (work y s).2.cpu.regs.a ∧
      (N.value (work y s).2.cpu.regs.a : Int) =
        N.value s.cpu.regs.a +
          sign * (N.value y + s.carry.toNat - N.base * (work y s).2.carry.toNat)

/-- A result is the sum of two numbers and the carry: its bytes are those of the sum as far as they
reach, and its carry flag tells whether they reach. -/
def IsSum (xs ys : List UInt8) (s : Core V A) (result : List UInt8 × Core V A) : Prop :=
  result.1 = N.write ((N.read xs + N.read ys + s.carry.toNat) % N.base ^ xs.length) xs.length ∧
    (result.2.carry = true ↔ N.base ^ xs.length ≤ N.read xs + N.read ys + s.carry.toNat)

/-- A result is the difference of two numbers less the carry: its bytes are those of the difference,
counted from the power of the base if it is negative, and its carry flag tells whether it is. -/
def IsDifference (xs ys : List UInt8) (s : Core V A) (result : List UInt8 × Core V A) : Prop :=
  result.1 =
      N.write ((N.read xs - N.read ys - s.carry.toNat : Int) % N.base ^ xs.length).toNat
        xs.length ∧
    (result.2.carry = true ↔ N.read xs < N.read ys + s.carry.toNat)

theorem value_packedDecimal (v : UInt8) :
    packedDecimal.value v = 10 * (v.toNat / 16) + v.toNat % 16 := rfl

theorem chains_adc : binary.Chains (V := V) (A := A) 1 (Instruction.runAlu .adc) := by
  intro s y _ _
  have hvalue := Arithmetic.toNat_add s.cpu.regs.a y s.carry
  refine ⟨trivial, ?_⟩
  change ((Arithmetic.add s.cpu.regs.a y s.carry).1.toNat : Int) =
    s.cpu.regs.a.toNat + 1 * (y.toNat + s.carry.toNat -
      256 * (Arithmetic.add s.cpu.regs.a y s.carry).2.carry.toNat)
  omega

theorem chains_sbc : binary.Chains (V := V) (A := A) (-1) (Instruction.runAlu .sbc) := by
  intro s y _ _
  have hvalue := Arithmetic.toNat_sub s.cpu.regs.a y s.carry
  refine ⟨trivial, ?_⟩
  change ((Arithmetic.sub s.cpu.regs.a y s.carry).1.toNat : Int) =
    s.cpu.regs.a.toNat + -1 * (y.toNat + s.carry.toNat -
      256 * (Arithmetic.sub s.cpu.regs.a y s.carry).2.carry.toNat)
  omega

/-- After a sum the adjustment carries where decimals do. -/
theorem packedDecimal_add {a v : UInt8} (c : Bool) (ha : packedDecimal.IsDigit a)
    (hv : packedDecimal.IsDigit v) :
    let sum := Arithmetic.add a v c
    let adjusted := Arithmetic.decimalAdjust sum.2 sum.1
    packedDecimal.IsDigit adjusted.1 ∧
      packedDecimal.value adjusted.1 + 100 * adjusted.2.carry.toNat =
        packedDecimal.value a + packedDecimal.value v + c.toNat := by
  intro sum adjusted
  obtain ⟨hahigh, halow⟩ := ha
  obtain ⟨hvhigh, hvlow⟩ := hv
  have hc := Bool.toNat_le c
  have hsum : sum.1.toNat = (a.toNat + v.toNat + c.toNat) % 256 := UInt8.toNat_ofNat'
  have hlow : (decide (15 < a.toNat % 16 + v.toNat % 16 + c.toNat) ||
        (true && decide (9 < sum.1.toNat % 16))) =
      decide (9 < a.toNat % 16 + v.toNat % 16 + c.toNat) := by
    rw [hsum, Bool.true_and, ← Bool.decide_or, decide_eq_decide]
    omega
  have hhigh : (decide (255 < a.toNat + v.toNat + c.toNat) ||
        (true && decide (0x99 < sum.1.toNat))) =
      decide (99 < packedDecimal.value a + packedDecimal.value v + c.toNat) := by
    rw [hsum, Bool.true_and, ← Bool.decide_or, decide_eq_decide, value_packedDecimal,
      value_packedDecimal]
    omega
  obtain ⟨hresult, hcarry⟩ := Arithmetic.decimalAdjust_of sum.2 sum.1 hlow hhigh
  change adjusted.1.toNat = (sum.1.toNat + _) % 256 at hresult
  have hdigit := Arithmetic.toNat_decide (9 < a.toNat % 16 + v.toNat % 16 + c.toNat)
  have hnumber :=
    Arithmetic.toNat_decide (99 < packedDecimal.value a + packedDecimal.value v + c.toNat)
  rw [hcarry]
  rw [hsum] at hresult
  simp only [value_packedDecimal] at hresult hnumber ⊢
  refine ⟨⟨?_, ?_⟩, ?_⟩ <;> omega

/-- After a difference the adjustment borrows where decimals do. -/
theorem packedDecimal_sub {a v : UInt8} (c : Bool) (ha : packedDecimal.IsDigit a)
    (hv : packedDecimal.IsDigit v) :
    let difference := Arithmetic.sub a v c
    let adjusted := Arithmetic.decimalAdjust difference.2 difference.1
    packedDecimal.IsDigit adjusted.1 ∧
      packedDecimal.value adjusted.1 + packedDecimal.value v + c.toNat =
        packedDecimal.value a + 100 * adjusted.2.carry.toNat := by
  intro difference adjusted
  obtain ⟨hahigh, halow⟩ := ha
  obtain ⟨hvhigh, hvlow⟩ := hv
  have hc := Bool.toNat_le c
  have hlow : (decide (a.toNat % 16 < v.toNat % 16 + c.toNat) ||
        (!true && decide (9 < difference.1.toNat % 16))) =
      decide (a.toNat % 16 < v.toNat % 16 + c.toNat) := Bool.or_false _
  have hborrow : difference.2.carry =
      decide (packedDecimal.value a < packedDecimal.value v + c.toNat) := by
    change decide (a.toNat < v.toNat + c.toNat) = _
    rw [decide_eq_decide, value_packedDecimal, value_packedDecimal]
    omega
  have hhigh : (difference.2.carry || (!true && decide (0x99 < difference.1.toNat))) =
      decide (packedDecimal.value a < packedDecimal.value v + c.toNat) := by
    rw [Bool.not_true, Bool.false_and, Bool.or_false, hborrow]
  have hdifference : difference.1.toNat + v.toNat + c.toNat =
      a.toNat + 256 * difference.2.carry.toNat := Arithmetic.toNat_sub a v c
  obtain ⟨hresult, hcarry⟩ := Arithmetic.decimalAdjust_of difference.2 difference.1 hlow hhigh
  change adjusted.1.toNat = (difference.1.toNat + 256 - _) % 256 at hresult
  have hdigit := Arithmetic.toNat_decide (a.toNat % 16 < v.toNat % 16 + c.toNat)
  have hnumber := Arithmetic.toNat_decide (packedDecimal.value a < packedDecimal.value v + c.toNat)
  rw [hcarry]
  rw [hborrow] at hdifference
  simp only [value_packedDecimal] at hresult hdifference hnumber ⊢
  refine ⟨⟨?_, ?_⟩, ?_⟩ <;> omega

theorem chains_adc_adjusted [VideoUnit V] [AudioUnit A] :
    packedDecimal.Chains (V := V) (A := A) 1 (adjusted .adc) := by
  intro s y hx hy
  obtain ⟨hdigit, hvalue⟩ := packedDecimal_add s.carry hx hy
  refine ⟨hdigit, ?_⟩
  have hbase : (packedDecimal.base : Int) = 100 := rfl
  rw [hbase]
  change _ + 100 * (adjusted .adc y s).2.carry.toNat = _ at hvalue
  change packedDecimal.value (adjusted .adc y s).2.cpu.regs.a + _ = _ at hvalue
  omega

theorem chains_sbc_adjusted [VideoUnit V] [AudioUnit A] :
    packedDecimal.Chains (V := V) (A := A) (-1) (adjusted .sbc) := by
  intro s y hx hy
  obtain ⟨hdigit, hvalue⟩ := packedDecimal_sub s.carry hx hy
  refine ⟨hdigit, ?_⟩
  have hbase : (packedDecimal.base : Int) = 100 := rfl
  rw [hbase]
  change _ = _ + 100 * (adjusted .sbc y s).2.carry.toNat at hvalue
  change packedDecimal.value (adjusted .sbc y s).2.cpu.regs.a + _ + _ = _ at hvalue
  omega

variable {N : Numerals} {sign : Int} {work : UInt8 → Exec V A Unit} {between : Exec V A Unit}

/-- A byte is worked on, and then the rest of the bytes. -/
theorem bytewise_cons (x y : UInt8) (xs ys : List UInt8) (s : Core V A) :
    let t := (work y (setByte .a x s).2).2
    let rest := bytewise work between xs ys (between t).2
    bytewise work between (x :: xs) (y :: ys) s = (t.cpu.regs.a :: rest.1, rest.2) := rfl

/-- What holds of a digit holds of as many as there are. -/
theorem Chains.bytewise (hchains : N.Chains sign work) (hbetween : KeepsCarry between)
    (s : Core V A) {xs ys : List UInt8} (hlength : ys.length = xs.length)
    (hxs : N.AreDigits xs) (hys : N.AreDigits ys) :
    let result := bytewise work between xs ys s
    result.1.length = xs.length ∧ N.AreDigits result.1 ∧
      (N.read result.1 : Int) =
        N.read xs +
          sign * (N.read ys + s.carry.toNat - N.base ^ xs.length * result.2.carry.toNat) := by
  induction xs generalizing ys s with
  | nil =>
    obtain rfl := List.length_eq_zero_iff.mp hlength
    refine ⟨rfl, hxs, ?_⟩
    change (0 : Int) = 0 + sign * (0 + s.carry.toNat - N.base ^ 0 * s.carry.toNat)
    ring
  | cons x xs ih =>
    cases ys with
    | nil => cases hlength
    | cons y ys =>
      obtain ⟨hx, hxs⟩ := hxs.of_cons
      obtain ⟨hy, hys⟩ := hys.of_cons
      obtain ⟨hz, hvalue⟩ := hchains (setByte .a x s).2 y hx hy
      have hcarry := hbetween (work y (setByte .a x s).2).2
      obtain ⟨hcount, hrest, hread⟩ :=
        ih (between (work y (setByte .a x s).2).2).2 (Nat.succ.inj hlength) hxs hys
      rw [bytewise_cons]
      refine ⟨congrArg Nat.succ hcount, hrest.cons hz, ?_⟩
      rw [hcarry] at hread
      simp only [read_cons, List.length_cons, pow_succ]
      push_cast
      rw [hread, hvalue]
      change (N.value x + sign * (N.value y + s.carry.toNat - _) : Int) + _ = _
      ring

theorem Chains.isSum (hchains : N.Chains 1 work) (hbetween : KeepsCarry between) (s : Core V A)
    {xs ys : List UInt8} (hlength : ys.length = xs.length) (hxs : N.AreDigits xs)
    (hys : N.AreDigits ys) : N.IsSum xs ys s (Exec.bytewise work between xs ys s) := by
  obtain ⟨hcount, hdigits, hread⟩ := hchains.bytewise hbetween s hlength hxs hys
  have hlt := hdigits.read_lt
  have hwritten := hdigits.write_read
  rw [hcount] at hlt hwritten
  generalize Exec.bytewise work between xs ys s = result at *
  have hworth : N.read xs + N.read ys + s.carry.toNat =
      N.read result.1 + N.base ^ xs.length * result.2.carry.toNat := by
    zify
    linarith
  rw [IsSum, hworth, Nat.add_mul_mod_self_left, Nat.mod_eq_of_lt hlt, hwritten]
  refine ⟨rfl, ?_⟩
  cases result.2.carry with
  | false => simpa using hlt
  | true => simp

theorem Chains.isDifference (hchains : N.Chains (-1) work) (hbetween : KeepsCarry between)
    (s : Core V A) {xs ys : List UInt8} (hlength : ys.length = xs.length) (hxs : N.AreDigits xs)
    (hys : N.AreDigits ys) : N.IsDifference xs ys s (Exec.bytewise work between xs ys s) := by
  obtain ⟨hcount, hdigits, hread⟩ := hchains.bytewise hbetween s hlength hxs hys
  have hlt := hdigits.read_lt
  have hwritten := hdigits.write_read
  rw [hcount] at hlt hwritten
  generalize Exec.bytewise work between xs ys s = result at *
  have hworth : (N.read xs - N.read ys - s.carry.toNat : Int) =
      N.read result.1 + N.base ^ xs.length * (-result.2.carry.toNat) := by
    linarith
  have hrest : ((N.read xs - N.read ys - s.carry.toNat : Int) % N.base ^ xs.length).toNat =
      N.read result.1 := by
    rw [hworth, Int.add_mul_emod_self_left, ← Nat.cast_pow, ← Int.natCast_mod,
      Int.toNat_natCast, Nat.mod_eq_of_lt hlt]
  rw [IsDifference, hrest, hwritten]
  refine ⟨rfl, ?_⟩
  zify at hlt ⊢
  cases hcarry : result.2.carry with
  | false =>
    rw [hcarry, Bool.toNat_false, Nat.cast_zero, neg_zero, mul_zero] at hworth
    simp only [Bool.false_eq_true, false_iff]
    omega
  | true =>
    rw [hcarry, Bool.toNat_true, Nat.cast_one] at hworth
    simp only [true_iff]
    linarith

end Numerals

open Numerals

/-- Numbers of any number of bytes are added and subtracted byte by byte through the carry flag, and
so are packed decimals if each byte is adjusted. -/
theorem Core.multibyte_arithmetic [VideoUnit V] [AudioUnit A] {between : Exec V A Unit}
    (hbetween : KeepsCarry between) (s : Core V A) {xs ys : List UInt8}
    (hlength : ys.length = xs.length) :
    binary.IsSum xs ys s (bytewise (Instruction.runAlu .adc) between xs ys s) ∧
    binary.IsDifference xs ys s (bytewise (Instruction.runAlu .sbc) between xs ys s) ∧
    (packedDecimal.AreDigits xs → packedDecimal.AreDigits ys →
      packedDecimal.IsSum xs ys s (bytewise (adjusted .adc) between xs ys s) ∧
      packedDecimal.IsDifference xs ys s (bytewise (adjusted .sbc) between xs ys s)) := by
  have hbytes (bytes : List UInt8) : binary.AreDigits bytes := fun _ _ => trivial
  refine ⟨?_, ?_, fun hxs hys => ⟨?_, ?_⟩⟩
  · exact chains_adc.isSum hbetween s hlength (hbytes xs) (hbytes ys)
  · exact chains_sbc.isDifference hbetween s hlength (hbytes xs) (hbytes ys)
  · exact chains_adc_adjusted.isSum hbetween s hlength hxs hys
  · exact chains_sbc_adjusted.isDifference hbetween s hlength hxs hys

/-- What a program does between two bytes to step its pointer and its counter. -/
def nextByte [VideoUnit V] [AudioUnit A] : Exec V A Unit := do
  (Instruction.incrementWord .hl).run
  (Instruction.decrement (.reg .e)).run

/-- With the carry flag set, as it is at power-on, 999 and 1 add up to 1001, and 1 taken from 999
leaves 997. -/
theorem Core.multibyte_arithmetic_carried :
    KeepsCarry (nextByte (V := Lcd) (A := Sound)) ∧ packedDecimal.AreDigits [0x99, 0x09] ∧
      packedDecimal.AreDigits [0x01, 0x00] ∧
      (bytewise (adjusted .adc) nextByte [0x99, 0x09] [0x01, 0x00] (Core.powerOn none)).1 =
        [0x01, 0x10] ∧
      (bytewise (adjusted .sbc) nextByte [0x99, 0x09] [0x01, 0x00] (Core.powerOn none)).1 =
        [0x97, 0x09] := by
  have hkeeps : KeepsCarry (nextByte (V := Lcd) (A := Sound)) := fun _ => rfl
  have hxs : packedDecimal.AreDigits [0x99, 0x09] :=
    .cons ⟨by decide, by decide⟩ (.cons ⟨by decide, by decide⟩ nofun)
  have hys : packedDecimal.AreDigits [0x01, 0x00] :=
    .cons ⟨by decide, by decide⟩ (.cons ⟨by decide, by decide⟩ nofun)
  have hlength : ([0x01, 0x00] : List UInt8).length = ([0x99, 0x09] : List UInt8).length := rfl
  obtain ⟨-, -, hdecimal⟩ := Core.multibyte_arithmetic hkeeps (Core.powerOn none) hlength
  obtain ⟨⟨hsum, -⟩, hdifference, -⟩ := hdecimal hxs hys
  refine ⟨hkeeps, hxs, hys, hsum.trans ?_, hdifference.trans ?_⟩
  · rfl
  · rfl

end Handheld
