import Handheld.Proofs.Cartridge.ClockChip

/-!
The time that the clock shows. While every register is in its usual range, the registers are the
digits of a number of seconds, and each tick adds the length of its unit to that number. It wraps
after 512 days, and then the carry flag is set for good.
-/
namespace Handheld

namespace ClockChip

/-- Every register is below the value at which it usually wraps. -/
structure Usual (c : ClockChip) : Prop where
  seconds_le : c.seconds ≤ 59
  minutes_le : c.minutes ≤ 59
  hours_le : c.hours ≤ 23
  day_le : c.day ≤ 511

/-- The seconds since the start of day zero. -/
def time (c : ClockChip) : Nat := ((c.day * 24 + c.hours) * 60 + c.minutes) * 60 + c.seconds

/-- The seconds after which the day wraps. -/
def span : Nat := 512 * 86400

theorem Usual.time_lt {c : ClockChip} (h : c.Usual) : c.time < span := by
  obtain ⟨hseconds, hminutes, hhours, hday⟩ := h
  unfold time span
  omega

/-- What `n` seconds do to the time: it goes on, and if it wraps the carry flag is set. -/
structure Elapsed (c : ClockChip) (n : Nat) (c' : ClockChip) : Prop where
  usual : c'.Usual
  time_eq : c'.time = (c.time + n) % span
  carry_eq : c'.carry = (c.carry || decide (span ≤ c.time + n))
  halt_eq : c'.halt = c.halt

theorem Elapsed.refl {c : ClockChip} (h : c.Usual) : Elapsed c 0 c where
  usual := h
  time_eq := (Nat.mod_eq_of_lt h.time_lt).symm
  carry_eq := by
    have hnot : ¬span ≤ c.time + 0 := Nat.not_le_of_lt h.time_lt
    rw [decide_eq_false hnot, Bool.or_false]
  halt_eq := rfl

theorem Elapsed.trans {c c' c'' : ClockChip} {m n : Nat} (first : Elapsed c m c')
    (next : Elapsed c' n c'') : Elapsed c (m + n) c'' where
  usual := next.usual
  time_eq := by rw [next.time_eq, first.time_eq, Nat.mod_add_mod, Nat.add_assoc]
  carry_eq := by
    have hwraps : (span ≤ c.time + m ∨ span ≤ c'.time + n) ↔ span ≤ c.time + (m + n) := by
      rw [first.time_eq]
      by_cases hlate : span ≤ c.time + m
      · constructor
        · intro _
          omega
        · intro _
          exact Or.inl hlate
      · rw [Nat.mod_eq_of_lt (Nat.lt_of_not_le hlate)]
        omega
    rw [next.carry_eq, first.carry_eq, Bool.or_assoc, ← Bool.decide_or]
    simp only [hwraps]
  halt_eq := next.halt_eq.trans first.halt_eq

/-- A tick that counts the value of a register up from some lower value, and carries as the next
one does, passes the seconds between the two. -/
theorem Elapsed.of_shifted {c d c' : ClockChip} {m n : Nat} (h : Elapsed d n c')
    (htime : d.time + n = c.time + m) (hcarry : d.carry = c.carry) (hhalt : d.halt = c.halt) :
    Elapsed c m c' where
  usual := h.usual
  time_eq := by rw [h.time_eq, htime]
  carry_eq := by rw [h.carry_eq, htime, hcarry]
  halt_eq := h.halt_eq.trans hhalt

/-- Moving on within the span leaves the carry flag alone. -/
theorem elapsed_of_time_eq {c c' : ClockChip} {n : Nat} (h : c'.Usual)
    (htime : c'.time = c.time + n) (hcarry : c'.carry = c.carry) (hhalt : c'.halt = c.halt) :
    Elapsed c n c' :=
  (Elapsed.refl h).of_shifted htime hcarry hhalt

theorem elapsed_dayTick {c : ClockChip} (h : c.Usual) : Elapsed c 86400 c.dayTick := by
  obtain ⟨hseconds, hminutes, hhours, hday⟩ := h
  have hnext : (c.day + 1) % 512 ≤ 511 := by omega
  refine ⟨⟨hseconds, hminutes, hhours, hnext⟩, ?_, ?_, rfl⟩
  · unfold dayTick time span
    dsimp only
    omega
  · have hwraps : 512 ≤ c.day + 1 ↔ span ≤ c.time + 86400 := by
      unfold time span
      omega
    unfold dayTick
    dsimp only
    simp only [hwraps]

theorem elapsed_hourTick {c : ClockChip} (h : c.Usual) : Elapsed c 3600 c.hourTick := by
  obtain ⟨hseconds, hminutes, hhours, hday⟩ := h
  unfold hourTick
  split
  · next hlast =>
    have hzero : { c with hours := 0 }.Usual := ⟨hseconds, hminutes, Nat.zero_le _, hday⟩
    refine (elapsed_dayTick hzero).of_shifted ?_ rfl rfl
    unfold time
    dsimp only
    omega
  · next hlast =>
    refine elapsed_of_time_eq ⟨hseconds, hminutes, ?_, hday⟩ ?_ rfl rfl
    · dsimp only
      omega
    · unfold time
      dsimp only
      omega

theorem elapsed_minuteTick {c : ClockChip} (h : c.Usual) : Elapsed c 60 c.minuteTick := by
  obtain ⟨hseconds, hminutes, hhours, hday⟩ := h
  unfold minuteTick
  split
  · next hlast =>
    have hzero : { c with minutes := 0 }.Usual := ⟨hseconds, Nat.zero_le _, hhours, hday⟩
    refine (elapsed_hourTick hzero).of_shifted ?_ rfl rfl
    unfold time
    dsimp only
    omega
  · next hlast =>
    refine elapsed_of_time_eq ⟨hseconds, ?_, hhours, hday⟩ ?_ rfl rfl
    · dsimp only
      omega
    · unfold time
      dsimp only
      omega

theorem elapsed_secondTick {c : ClockChip} (h : c.Usual) : Elapsed c 1 c.secondTick := by
  obtain ⟨hseconds, hminutes, hhours, hday⟩ := h
  unfold secondTick
  split
  · next hlast =>
    have hzero : { c with seconds := 0 }.Usual := ⟨Nat.zero_le _, hminutes, hhours, hday⟩
    refine (elapsed_minuteTick hzero).of_shifted ?_ rfl rfl
    unfold time
    dsimp only
    omega
  · next hlast =>
    refine elapsed_of_time_eq ⟨?_, hminutes, hhours, hday⟩ ?_ rfl rfl
    · dsimp only
      omega
    · unfold time
      dsimp only
      omega

theorem elapsed_secondTicks {c : ClockChip} (h : c.Usual) (n : Nat) :
    Elapsed c n (secondTick^[n] c) := by
  induction n with
  | zero => exact .refl h
  | succ n ih =>
    rw [Function.iterate_succ_apply']
    exact ih.trans (elapsed_secondTick ih.usual)

end ClockChip

namespace ClockRegisters

/-- Registers in their usual range hold a time, and advancing them by any number of seconds adds
these to it. The time wraps after 512 days, which sets the carry flag, and the halt flag stays as
it is. -/
theorem advance_adds_time {r : ClockRegisters} (hseconds : r.seconds.toNat ≤ 59)
    (hminutes : r.minutes.toNat ≤ 59) (hhours : r.hours.toNat ≤ 23) (n : Nat) :
    (r.advance n).chip.Usual ∧
      (r.advance n).chip.time = (r.chip.time + n) % (512 * 86400) ∧
      ((r.advance n).carry = true ↔ r.carry = true ∨ 512 * 86400 ≤ r.chip.time + n) ∧
      (r.advance n).halted = r.halted := by
  have hday : r.days ≤ 511 := Nat.le_of_lt_succ r.days_lt
  have husual : r.chip.Usual := ⟨hseconds, hminutes, hhours, hday⟩
  have helapsed := ClockChip.elapsed_secondTicks husual n
  rw [← chip_advance (by omega)] at helapsed
  refine ⟨helapsed.usual, helapsed.time_eq, ?_, helapsed.halt_eq⟩
  have hcarry : (r.advance n).carry = (r.carry || decide (512 * 86400 ≤ r.chip.time + n)) :=
    helapsed.carry_eq
  rw [hcarry, Bool.or_eq_true, decide_eq_true_eq]

/-- The last second of the last day, from which the day wraps twice. -/
def lastSecond : ClockRegisters := ⟨59, 59, 23, 0xFF, 0x41⟩

theorem advance_adds_time_lastSecond :
    (lastSecond.seconds.toNat ≤ 59 ∧ lastSecond.minutes.toNat ≤ 59 ∧ lastSecond.hours.toNat ≤ 23) ∧
      (lastSecond.advance 44236802).chip.time = 1 ∧ (lastSecond.advance 44236802).carry = true ∧
      (lastSecond.advance 44236802).halted = true := by
  have hseconds : lastSecond.seconds.toNat ≤ 59 := by decide
  have hminutes : lastSecond.minutes.toNat ≤ 59 := by decide
  have hhours : lastSecond.hours.toNat ≤ 23 := by decide
  obtain ⟨-, htime, hcarry, hhalted⟩ := advance_adds_time hseconds hminutes hhours 44236802
  refine ⟨⟨hseconds, hminutes, hhours⟩, htime, hcarry.mpr (Or.inr ?_), hhalted⟩
  decide

end ClockRegisters

end Handheld
