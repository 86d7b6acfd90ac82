import Handheld.Proofs.Cartridge.Checked

/-!
The clock chip in plain numbers. A register counts up to its width, and only the usual last value
carries into the next one. The registers of a cartridge clock are those numbers written as bytes,
and advancing them by any number of seconds is as many ticks of the chip.
-/
namespace Handheld

/-- The registers of the chip as numbers, with the day in one piece and the two flags. -/
@[ext] structure ClockChip where
  seconds : Nat
  minutes : Nat
  hours : Nat
  day : Nat
  halt : Bool
  carry : Bool
  deriving DecidableEq

namespace ClockChip

/-- The day has nine bits, and the carry flag tells that it has wrapped. -/
def dayTick (c : ClockChip) : ClockChip :=
  { c with day := (c.day + 1) % 512, carry := c.carry || decide (512 ≤ c.day + 1) }

def hourTick (c : ClockChip) : ClockChip :=
  if c.hours = 23 then { c with hours := 0 }.dayTick else { c with hours := (c.hours + 1) % 32 }

def minuteTick (c : ClockChip) : ClockChip :=
  if c.minutes = 59 then { c with minutes := 0 }.hourTick
  else { c with minutes := (c.minutes + 1) % 64 }

/-- One second. -/
def secondTick (c : ClockChip) : ClockChip :=
  if c.seconds = 59 then { c with seconds := 0 }.minuteTick
  else { c with seconds := (c.seconds + 1) % 64 }

/-- The bytes of the registers. -/
def registers (c : ClockChip) : ClockRegisters where
  seconds := UInt8.ofNat c.seconds
  minutes := UInt8.ofNat c.minutes
  hours := UInt8.ofNat c.hours
  dayLow := UInt8.ofNat c.day
  dayHigh := UInt8.ofNat (c.day / 256) ||| (if c.halt then 0x40 else 0) |||
    (if c.carry then 0x80 else 0)

end ClockChip

namespace ClockRegisters

/-- What the bytes of the registers hold. -/
def chip (r : ClockRegisters) : ClockChip where
  seconds := r.seconds.toNat
  minutes := r.minutes.toNat
  hours := r.hours.toNat
  day := r.days
  halt := r.halted
  carry := r.carry

theorem days_lt (r : ClockRegisters) : r.days < 512 := by
  have hlow := r.dayLow.toNat_lt
  unfold days
  omega

/-- The upper byte of the day is its lowest bit and the two flags. -/
theorem dayHigh_eq_of_masked (v : UInt8) (h : v &&& 0xC1 = v) :
    UInt8.ofNat (v.toNat % 2) ||| (if v &&& haltBit != 0 then 0x40 else 0) |||
      (if v &&& carryBit != 0 then 0x80 else 0) = v := by
  revert h
  revert v
  exact forall_byte (by decide +kernel)

/-- Registers within their bits are the bytes of what they hold. -/
theorem Masked.registers_chip {r : ClockRegisters} (h : r.Masked) : r.chip.registers = r := by
  have hlow := r.dayLow.toNat_lt
  have hday : r.days / 256 = r.dayHigh.toNat % 2 := by
    unfold days
    omega
  have hdayLow : UInt8.ofNat r.days = r.dayLow := by
    apply UInt8.toNat_inj.mp
    rw [UInt8.toNat_ofNat', days]
    omega
  ext1
  · exact UInt8.ofNat_toNat
  · exact UInt8.ofNat_toNat
  · exact UInt8.ofNat_toNat
  · exact hdayLow
  · change UInt8.ofNat (r.days / 256) ||| _ ||| _ = _
    rw [hday]
    exact dayHigh_eq_of_masked r.dayHigh (h .dayHigh)

/-- Setting the ninth bit of the day in the upper byte leaves the carry flag alone. -/
theorem setDays_upper (v : UInt8) (days : Nat) :
    (v &&& 0xFE ||| UInt8.ofNat (days / 256 % 2)).toNat % 2 = days / 256 % 2 ∧
      ((v &&& 0xFE ||| UInt8.ofNat (days / 256 % 2)) &&& carryBit != 0) =
        (v &&& carryBit != 0) := by
  have hzero : ∀ v : UInt8, (v &&& 0xFE ||| UInt8.ofNat 0).toNat % 2 = 0 ∧
      ((v &&& 0xFE ||| UInt8.ofNat 0) &&& carryBit != 0) = (v &&& carryBit != 0) :=
    forall_byte (by decide +kernel)
  have hone : ∀ v : UInt8, (v &&& 0xFE ||| UInt8.ofNat 1).toNat % 2 = 1 ∧
      ((v &&& 0xFE ||| UInt8.ofNat 1) &&& carryBit != 0) = (v &&& carryBit != 0) :=
    forall_byte (by decide +kernel)
  have hcases : days / 256 % 2 = 0 ∨ days / 256 % 2 = 1 := by omega
  rcases hcases with h | h
  · rw [h]
    exact hzero v
  · rw [h]
    exact hone v

theorem days_setDays (r : ClockRegisters) (days : Nat) : (r.setDays days).days = days % 512 := by
  have hupper := (setDays_upper r.dayHigh days).1
  change (UInt8.ofNat days).toNat +
    256 * ((r.dayHigh &&& 0xFE ||| UInt8.ofNat (days / 256 % 2)).toNat % 2) = _
  rw [hupper, UInt8.toNat_ofNat']
  omega

theorem carry_setDays (r : ClockRegisters) (days : Nat) : (r.setDays days).carry = r.carry :=
  (setDays_upper r.dayHigh days).2

/-- Setting the carry flag in the upper byte leaves the day alone. -/
theorem or_carryBit_upper (v : UInt8) :
    (v ||| carryBit).toNat % 2 = v.toNat % 2 ∧ ((v ||| carryBit) &&& carryBit != 0) = true := by
  revert v
  exact forall_byte (by decide +kernel)

theorem days_or_carryBit (r : ClockRegisters) :
    { r with dayHigh := r.dayHigh ||| carryBit }.days = r.days := by
  change r.dayLow.toNat + 256 * ((r.dayHigh ||| carryBit).toNat % 2) = _
  rw [(or_carryBit_upper r.dayHigh).1, days]

theorem carry_or_carryBit (r : ClockRegisters) :
    { r with dayHigh := r.dayHigh ||| carryBit }.carry = true :=
  (or_carryBit_upper r.dayHigh).2

theorem chip_dayTick (r : ClockRegisters) : r.dayTick.chip = r.chip.dayTick := by
  have hlt := r.days_lt
  have hhalt := r.halted_dayTick
  by_cases hlast : lastDay ≤ r.days
  · have hwraps : 512 ≤ r.days + 1 := Nat.succ_le_succ hlast
    have hday : r.dayTick.days = (r.days + 1) % 512 := by
      rw [dayTick, if_pos hlast, days_or_carryBit, days_setDays]
      omega
    have hcarry : r.dayTick.carry = (r.carry || decide (512 ≤ r.days + 1)) := by
      rw [dayTick, if_pos hlast, carry_or_carryBit, decide_eq_true hwraps, Bool.or_true]
    rw [dayTick, if_pos hlast] at hhalt hday hcarry ⊢
    exact ClockChip.ext rfl rfl rfl hday hhalt hcarry
  · have hnot : ¬512 ≤ r.days + 1 := fun h => hlast (Nat.le_of_succ_le_succ h)
    have hday : r.dayTick.days = (r.days + 1) % 512 := by
      rw [dayTick, if_neg hlast, days_setDays]
    have hcarry : r.dayTick.carry = (r.carry || decide (512 ≤ r.days + 1)) := by
      rw [dayTick, if_neg hlast, carry_setDays, decide_eq_false hnot, Bool.or_false]
    rw [dayTick, if_neg hlast] at hhalt hday hcarry ⊢
    exact ClockChip.ext rfl rfl rfl hday hhalt hcarry

theorem chip_hourTick (r : ClockRegisters) : r.hourTick.chip = r.chip.hourTick := by
  by_cases hlast : r.hours = 23
  · have hnumber : r.chip.hours = 23 := congrArg UInt8.toNat hlast
    rw [hourTick, if_pos hlast, ClockChip.hourTick, if_pos hnumber, chip_dayTick]
    rfl
  · have hnumber : r.chip.hours ≠ 23 := fun h => hlast (UInt8.toNat_inj.mp h)
    have hnext := toNat_succ_and_mask r.hours ClockField.hours.mask 5 (by omega) rfl
    rw [hourTick, if_neg hlast, ClockChip.hourTick, if_neg hnumber]
    exact ClockChip.ext rfl rfl hnext rfl rfl rfl

theorem chip_minuteTick (r : ClockRegisters) : r.minuteTick.chip = r.chip.minuteTick := by
  by_cases hlast : r.minutes = 59
  · have hnumber : r.chip.minutes = 59 := congrArg UInt8.toNat hlast
    rw [minuteTick, if_pos hlast, ClockChip.minuteTick, if_pos hnumber, chip_hourTick]
    rfl
  · have hnumber : r.chip.minutes ≠ 59 := fun h => hlast (UInt8.toNat_inj.mp h)
    have hnext := toNat_succ_and_mask r.minutes ClockField.minutes.mask 6 (by omega) rfl
    rw [minuteTick, if_neg hlast, ClockChip.minuteTick, if_neg hnumber]
    exact ClockChip.ext rfl hnext rfl rfl rfl rfl

theorem chip_secondTick (r : ClockRegisters) : r.secondTick.chip = r.chip.secondTick := by
  by_cases hlast : r.seconds = 59
  · have hnumber : r.chip.seconds = 59 := congrArg UInt8.toNat hlast
    rw [secondTick, if_pos hlast, ClockChip.secondTick, if_pos hnumber, chip_minuteTick]
    rfl
  · have hnumber : r.chip.seconds ≠ 59 := fun h => hlast (UInt8.toNat_inj.mp h)
    have hnext := toNat_succ_and_mask r.seconds ClockField.seconds.mask 6 (by omega) rfl
    rw [secondTick, if_neg hlast, ClockChip.secondTick, if_neg hnumber]
    exact ClockChip.ext hnext rfl rfl rfl rfl rfl

/-- Advancing the registers advances what they hold, a tick for each second. -/
theorem chip_advance {r : ClockRegisters} (hseconds : r.seconds.toNat < 64) (n : Nat) :
    (r.advance n).chip = ClockChip.secondTick^[n] r.chip := by
  rw [advance_eq_iterate hseconds]
  induction n with
  | zero => rfl
  | succ n ih =>
    rw [Function.iterate_succ_apply', Function.iterate_succ_apply', chip_secondTick, ih]

/-- Advancing by a number of seconds, a minute at a time, is ticking as often, also for values
past the usual range. So advances add up, and the checked steps of the loop never fail. -/
theorem advance_is_ticking {r : ClockRegisters} (h : r.Masked) :
    (∀ n, r.advance n = (ClockChip.secondTick^[n] r.chip).registers) ∧
      (∀ m n, r.advance (m + n) = (r.advance m).advance n) ∧
        ∀ n, r.advance? n = some (r.advance n) := by
  refine ⟨fun n => ?_, fun m n => ?_, fun n => ?_⟩
  · rw [← chip_advance h.seconds_lt, (h.advance n).registers_chip]
  · exact advance_add h m n
  · exact h.advance?_eq_some n

/-- The seconds are past their usual range on the last minute of the last day: they first run to
their width, which is no minute, and a minute later the day wraps and sets the carry flag. -/
theorem advance_is_ticking_lastMinute :
    (⟨63, 59, 23, 0xFF, 0x41⟩ : ClockRegisters).Masked ∧
      (⟨63, 59, 23, 0xFF, 0x41⟩ : ClockRegisters).advance 1 = ⟨0, 59, 23, 0xFF, 0x41⟩ ∧
      (⟨63, 59, 23, 0xFF, 0x41⟩ : ClockRegisters).advance (1 + 60) = ⟨0, 0, 0, 0, 0xC0⟩ := by
  have hmasked : (⟨63, 59, 23, 0xFF, 0x41⟩ : ClockRegisters).Masked := by
    intro field
    cases field <;> rfl
  obtain ⟨hticks, -, -⟩ := advance_is_ticking hmasked
  refine ⟨hmasked, hticks 1, ?_⟩
  rw [hticks (1 + 60)]
  decide +kernel

end ClockRegisters

end Handheld
