import Handheld.Cartridge.Calendar
import Mathlib.Algebra.Group.Nat.Defs
import Mathlib.Logic.Function.Iterate

/-!
The registers of the cartridge clock, a second at a time. Advancing by some seconds is as
many ticks of one second, so that advances add up in whatever portions they are made. A tick
sets no bit that a register does not have and leaves the halt bit alone.
-/
namespace Handheld

theorem toNat_and_mask (v mask : UInt8) (bits : Nat) (hmask : mask.toNat = 2 ^ bits - 1) :
    (v &&& mask).toNat = v.toNat % 2 ^ bits := by
  rw [UInt8.toNat_and, hmask, Nat.and_two_pow_sub_one_eq_mod]

/-- A counter of some bits counts modulo their power. -/
theorem toNat_succ_and_mask (v mask : UInt8) (bits : Nat) (hbits : bits ≤ 8)
    (hmask : mask.toNat = 2 ^ bits - 1) : ((v + 1) &&& mask).toNat = (v.toNat + 1) % 2 ^ bits := by
  have hdvd : 2 ^ bits ∣ 2 ^ 8 := Nat.pow_dvd_pow 2 hbits
  rw [toNat_and_mask _ _ bits hmask, UInt8.toNat_add]
  exact Nat.mod_mod_of_dvd _ hdvd

namespace ClockRegisters

/-- Only bits that exist are set. -/
def Masked (r : ClockRegisters) : Prop := ∀ field, r.get field &&& field.mask = r.get field

theorem masked_cleared : cleared.Masked := by
  intro field
  cases field <;> rfl

theorem get_set (r : ClockRegisters) (field other : ClockField) (v : UInt8) :
    (r.set field v).get other = if field = other then v &&& field.mask else r.get other := by
  cases field <;> cases other <;> rfl

theorem Masked.set {r : ClockRegisters} (h : r.Masked) (field : ClockField) (v : UInt8) :
    (r.set field v).Masked := by
  intro other
  rw [get_set]
  split
  · next heq =>
    subst heq
    rw [UInt8.and_assoc, UInt8.and_self]
  · exact h other

theorem get_ofValue (value : ClockField → UInt8) (field : ClockField) :
    (ofValue value).get field = value field &&& field.mask := by
  cases field <;> rfl

theorem masked_ofValue (value : ClockField → UInt8) : (ofValue value).Masked := by
  intro field
  rw [get_ofValue, UInt8.and_assoc, UInt8.and_self]

theorem masked_iff (r : ClockRegisters) :
    r.Masked ↔ r.seconds &&& 0x3F = r.seconds ∧ r.minutes &&& 0x3F = r.minutes ∧
      r.hours &&& 0x1F = r.hours ∧ r.dayHigh &&& 0xC1 = r.dayHigh := by
  constructor
  · intro h
    exact ⟨h .seconds, h .minutes, h .hours, h .dayHigh⟩
  · rintro ⟨hseconds, hminutes, hhours, hdayHigh⟩ field
    cases field with
    | seconds => exact hseconds
    | minutes => exact hminutes
    | hours => exact hhours
    | dayLow => exact UInt8.and_neg_one
    | dayHigh => exact hdayHigh

theorem Masked.seconds_lt {r : ClockRegisters} (h : r.Masked) : r.seconds.toNat < 64 := by
  have hmask := congrArg UInt8.toNat (h .seconds)
  rw [UInt8.toNat_and] at hmask
  have hle : r.seconds.toNat &&& 63 ≤ 63 := Nat.and_le_right
  change r.seconds.toNat &&& 63 = r.seconds.toNat at hmask
  omega

theorem or_and_distrib (a b mask : UInt8) : (a ||| b) &&& mask = a &&& mask ||| b &&& mask :=
  UInt8.toBitVec_inj.mp BitVec.and_or_distrib_right

/-- The ninth bit of a day as the lowest bit of a byte. -/
theorem highDay_eq (days : Nat) :
    UInt8.ofNat (days / 256 % 2) = 0 ∨ UInt8.ofNat (days / 256 % 2) = 1 := by
  have hbit : days / 256 % 2 = 0 ∨ days / 256 % 2 = 1 := by omega
  rcases hbit with h | h
  · exact Or.inl (by rw [h]; rfl)
  · exact Or.inr (by rw [h]; rfl)

theorem Masked.setDays {r : ClockRegisters} (h : r.Masked) (days : Nat) :
    (r.setDays days).Masked := by
  obtain ⟨hseconds, hminutes, hhours, hdayHigh⟩ := (masked_iff r).mp h
  refine (masked_iff _).mpr ⟨hseconds, hminutes, hhours, ?_⟩
  have hkept : r.dayHigh &&& 0xFE &&& 0xC1 = r.dayHigh &&& 0xFE := by
    rw [UInt8.and_assoc, UInt8.and_comm 0xFE, ← UInt8.and_assoc, hdayHigh]
  change (r.dayHigh &&& 0xFE ||| UInt8.ofNat (days / 256 % 2)) &&& 0xC1 = _
  rw [or_and_distrib, hkept]
  rcases highDay_eq days with hbit | hbit
  · rw [ClockRegisters.setDays, hbit]
    rfl
  · rw [ClockRegisters.setDays, hbit]
    rfl

theorem halted_setDays (r : ClockRegisters) (days : Nat) :
    (r.setDays days).halted = r.halted := by
  have hkept : r.dayHigh &&& 0xFE &&& haltBit = r.dayHigh &&& haltBit := UInt8.and_assoc ..
  change ((r.dayHigh &&& 0xFE ||| UInt8.ofNat (days / 256 % 2)) &&& haltBit != 0) = _
  rw [or_and_distrib, hkept, halted]
  rcases highDay_eq days with hbit | hbit
  · rw [hbit]
    exact congrArg (· != 0) UInt8.or_zero
  · rw [hbit]
    exact congrArg (· != 0) UInt8.or_zero

theorem Masked.dayTick {r : ClockRegisters} (h : r.Masked) : r.dayTick.Masked := by
  unfold ClockRegisters.dayTick
  split
  · obtain ⟨hseconds, hminutes, hhours, hdayHigh⟩ := (masked_iff _).mp (h.setDays 0)
    refine (masked_iff _).mpr ⟨hseconds, hminutes, hhours, ?_⟩
    change ((r.setDays 0).dayHigh ||| carryBit) &&& 0xC1 = _
    rw [or_and_distrib, hdayHigh]
    rfl
  · exact h.setDays _

theorem halted_dayTick (r : ClockRegisters) : r.dayTick.halted = r.halted := by
  unfold dayTick
  split
  · rw [← halted_setDays r 0]
    change (((r.setDays 0).dayHigh ||| carryBit) &&& haltBit != 0) = _
    rw [or_and_distrib]
    exact congrArg (· != 0) UInt8.or_zero
  · exact halted_setDays r _

theorem Masked.hourTick {r : ClockRegisters} (h : r.Masked) : r.hourTick.Masked := by
  unfold ClockRegisters.hourTick
  split
  · exact (h.set .hours 0).dayTick
  · exact h.set .hours (r.hours + 1)

theorem halted_hourTick (r : ClockRegisters) : r.hourTick.halted = r.halted := by
  unfold hourTick
  split
  · exact halted_dayTick _
  · rfl

theorem Masked.minuteTick {r : ClockRegisters} (h : r.Masked) : r.minuteTick.Masked := by
  unfold ClockRegisters.minuteTick
  split
  · exact (h.set .minutes 0).hourTick
  · exact h.set .minutes (r.minutes + 1)

theorem halted_minuteTick (r : ClockRegisters) : r.minuteTick.halted = r.halted := by
  unfold minuteTick
  split
  · exact halted_hourTick _
  · rfl

theorem Masked.secondTick {r : ClockRegisters} (h : r.Masked) : r.secondTick.Masked := by
  unfold ClockRegisters.secondTick
  split
  · exact (h.set .seconds 0).minuteTick
  · exact h.set .seconds (r.seconds + 1)

theorem halted_secondTick (r : ClockRegisters) : r.secondTick.halted = r.halted := by
  unfold secondTick
  split
  · exact halted_minuteTick _
  · rfl

theorem secondTick_of_ne {r : ClockRegisters} (h : r.seconds ≠ 59) :
    r.secondTick = { r with seconds := UInt8.ofNat ((r.seconds.toNat + 1) % 64) } := by
  rw [secondTick, if_neg h]
  congr 1
  apply UInt8.toNat_inj.mp
  rw [toNat_succ_and_mask r.seconds ClockField.seconds.mask 6 (by decide) rfl, UInt8.toNat_ofNat']
  omega

/-- Up to the next minute tick only the seconds count. -/
theorem iterate_secondTick_of_lt {r : ClockRegisters} {n : Nat} (hseconds : r.seconds.toNat < 64)
    (h : n < r.untilMinute) :
    secondTick^[n] r = { r with seconds := UInt8.ofNat ((r.seconds.toNat + n) % 64) } := by
  induction n with
  | zero => rw [Function.iterate_zero_apply, Nat.add_zero, Nat.mod_eq_of_lt hseconds,
      UInt8.ofNat_toNat]
  | succ n ih =>
    have hbefore : n < r.untilMinute := by omega
    have hvalue : (UInt8.ofNat ((r.seconds.toNat + n) % 64)).toNat =
        (r.seconds.toNat + n) % 64 := by
      rw [UInt8.toNat_ofNat']
      omega
    have hne : UInt8.ofNat ((r.seconds.toNat + n) % 64) ≠ 59 := by
      intro heq
      have hlast : (r.seconds.toNat + n) % 64 = 59 := hvalue ▸ congrArg UInt8.toNat heq
      unfold untilMinute at h
      split at h <;> omega
    rw [Function.iterate_succ_apply', ih hbefore, secondTick_of_ne hne]
    congr 2
    dsimp only
    omega

/-- The minute tick comes with the last of the seconds until it. -/
theorem iterate_secondTick_untilMinute {r : ClockRegisters} (hseconds : r.seconds.toNat < 64) :
    secondTick^[r.untilMinute] r = { r with seconds := 0 }.minuteTick := by
  have hpos := r.untilMinute_pos
  obtain ⟨n, hn⟩ : ∃ n, r.untilMinute = n + 1 := ⟨r.untilMinute - 1, by omega⟩
  have hlast : UInt8.ofNat ((r.seconds.toNat + n) % 64) = 59 := by
    have hvalue : (r.seconds.toNat + n) % 64 = 59 := by
      unfold untilMinute at hn
      split at hn <;> omega
    rw [hvalue]
    rfl
  rw [hn, Function.iterate_succ_apply', iterate_secondTick_of_lt hseconds (by omega), hlast]
  rfl

theorem seconds_hourTick (r : ClockRegisters) : r.hourTick.seconds = r.seconds := by
  unfold hourTick dayTick
  split
  · split <;> rfl
  · rfl

theorem seconds_minuteTick (r : ClockRegisters) : r.minuteTick.seconds = r.seconds := by
  unfold minuteTick
  split
  · exact seconds_hourTick _
  · rfl

/-- Advancing is ticking. -/
theorem advance_eq_iterate {r : ClockRegisters} (hseconds : r.seconds.toNat < 64) (n : Nat) :
    r.advance n = secondTick^[n] r := by
  fun_induction advance r n with
  | case1 r h => rfl
  | case2 r n h hn => rw [iterate_secondTick_of_lt hseconds h]
  | case3 r n h ih =>
    have hsplit : n = (n - r.untilMinute) + r.untilMinute := by omega
    have hzero : ({ r with seconds := 0 }.minuteTick).seconds = 0 := seconds_minuteTick _
    rw [ih (by rw [hzero]; decide), ← iterate_secondTick_untilMinute hseconds,
      ← Function.iterate_add_apply, ← hsplit]

theorem advance_one {r : ClockRegisters} (h : r.Masked) : r.advance 1 = r.secondTick :=
  advance_eq_iterate h.seconds_lt 1

theorem Masked.advance {r : ClockRegisters} (h : r.Masked) (n : Nat) : (r.advance n).Masked := by
  rw [advance_eq_iterate h.seconds_lt]
  induction n with
  | zero => exact h
  | succ n ih =>
    rw [Function.iterate_succ_apply']
    exact ih.secondTick

theorem halted_advance {r : ClockRegisters} (h : r.Masked) (n : Nat) :
    (r.advance n).halted = r.halted := by
  rw [advance_eq_iterate h.seconds_lt]
  induction n with
  | zero => rfl
  | succ n ih => rw [Function.iterate_succ_apply', halted_secondTick, ih]

theorem advance_zero (r : ClockRegisters) : r.advance 0 = r := by
  rw [ClockRegisters.advance, if_pos r.untilMinute_pos, if_pos rfl]

/-- Advances add up. -/
theorem advance_add {r : ClockRegisters} (h : r.Masked) (m n : Nat) :
    r.advance (m + n) = (r.advance m).advance n := by
  rw [advance_eq_iterate (h.advance m).seconds_lt, advance_eq_iterate h.seconds_lt,
    advance_eq_iterate h.seconds_lt, Nat.add_comm, Function.iterate_add_apply]

end ClockRegisters

end Handheld
