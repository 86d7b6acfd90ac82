import Handheld.Proofs.Timer.FallingEdge
import Mathlib.Algebra.Group.Nat.Defs

/-!
The ticks of a timer that is left alone. The counter of an enabled timer ticks where the divider
reaches a multiple of the period, and each tick adds one to it or, from the last value, starts
again at the modulo. So the number of ticks gives the value and tells which of them overflow.
-/
namespace Handheld

/-- Counting on to a multiple. -/
theorem mod_succ_of_dvd {a q : Nat} (h : q ∣ a + 1) : (a + 1) % q = 0 ∧ a % q + 1 = q := by
  have hdiv : (a + 1) / q = a / q + 1 := Nat.succ_div_of_dvd h
  have hzero : (a + 1) % q = 0 := Nat.mod_eq_zero_of_dvd h
  have hbefore := Nat.div_add_mod a q
  have hafter := Nat.div_add_mod (a + 1) q
  rw [hdiv, hzero, Nat.mul_succ] at hafter
  exact ⟨hzero, by omega⟩

theorem mod_succ_of_not_dvd {a q : Nat} (h : ¬q ∣ a + 1) : (a + 1) % q = a % q + 1 := by
  have hdiv : (a + 1) / q = a / q := Nat.succ_div_of_not_dvd h
  have hbefore := Nat.div_add_mod a q
  have hafter := Nat.div_add_mod (a + 1) q
  rw [hdiv] at hafter
  omega

namespace Timer

/-- Cycles from one tick to the next. -/
def period (control : UInt8) : Nat :=
  match control.toNat % 4 with
  | 0 => 1024
  | 1 => 16
  | 2 => 64
  | _ => 256

theorem period_eq_pow (control : UInt8) : period control = 2 ^ (watchedBit control + 1) := by
  unfold period watchedBit
  have hselect : control.toNat % 4 = 0 ∨ control.toNat % 4 = 1 ∨ control.toNat % 4 = 2 ∨
      control.toNat % 4 = 3 := by omega
  obtain h | h | h | h := hselect <;> rw [h] <;> rfl

theorem period_cases (control : UInt8) :
    period control = 16 ∨ period control = 64 ∨ period control = 256 ∨ period control = 1024 := by
  unfold period
  split <;> simp

theorem period_pos (control : UInt8) : 0 < period control := by
  have hperiod := period_cases control
  omega

/-- The watched bit falls where the divider reaches a multiple of the period. -/
theorem falls_iff_dvd {t : Timer} (h : t.Settled) (henabled : t.control &&& 0x04 ≠ 0) :
    t.falls = true ↔ period t.control ∣ t.divider.toNat + 1 := by
  have hlt := t.divider.toNat_lt
  have hnext : (t.divider + 1).toNat = (t.divider.toNat + 1) % 65536 := UInt16.toNat_add _ _
  rw [falls, h, signal, signalOf, signalOf, bne_iff_ne.mpr henabled, Bool.true_and, Bool.true_and,
    Bool.and_eq_true, Bool.not_eq_true', hnext, period_eq_pow, Nat.testBit_eq_decide_div_mod_eq,
    Nat.testBit_eq_decide_div_mod_eq, decide_eq_true_eq, decide_eq_false_iff_not]
  obtain hbit | hbit | hbit | hbit := watchedBit_eq t.control <;> rw [hbit] <;> omega

theorem falls_of_disabled {t : Timer} (h : t.Settled) (hdisabled : t.control &&& 0x04 = 0) :
    t.falls = false := by
  rw [falls, h, signal, signalOf, hdisabled]
  rfl

section Counting

variable (t : Timer)

/-- The ticks in the next `n` cycles. -/
def ticksIn (n : Nat) : Nat :=
  (t.divider.toNat + n) / period t.control - t.divider.toNat / period t.control

/-- The cycles since the divider was last a multiple of the period, `n` cycles from now. -/
def sinceTick (n : Nat) : Nat := (t.divider.toNat + n) % period t.control

/-- The tick of this number overflows: the first one to do so goes past the last value, and from
then on every one does that goes past it from the modulo. -/
def OverflowsOn (k : Nat) : Prop :=
  256 - t.counter.toNat ≤ k ∧ 256 - t.modulo.toNat ∣ k - (256 - t.counter.toNat)

/-- The value after a number of ticks, once every reload is made. -/
def valueAfter (k : Nat) : Nat :=
  if k < 256 - t.counter.toNat then t.counter.toNat + k
  else t.modulo.toNat + (k - (256 - t.counter.toNat)) % (256 - t.modulo.toNat)

/-- The cycle of this number is one of a tick that overflows. -/
def OverflowsAt (i : Nat) : Prop :=
  period t.control ∣ t.divider.toNat + i ∧ t.OverflowsOn (t.ticksIn i)

instance (k : Nat) : Decidable (t.OverflowsOn k) := inferInstanceAs (Decidable (_ ∧ _))

instance (i : Nat) : Decidable (t.OverflowsAt i) := inferInstanceAs (Decidable (_ ∧ _))

end Counting

variable {t : Timer} {k n : Nat}

theorem ticksIn_succ_of_dvd (h : period t.control ∣ t.divider.toNat + n + 1) :
    t.ticksIn (n + 1) = t.ticksIn n + 1 := by
  have hle : t.divider.toNat / period t.control ≤ (t.divider.toNat + n) / period t.control :=
    Nat.div_le_div_right (Nat.le_add_right _ _)
  rw [ticksIn, ticksIn, ← Nat.add_assoc, Nat.succ_div_of_dvd h]
  omega

theorem ticksIn_succ_of_not_dvd (h : ¬period t.control ∣ t.divider.toNat + n + 1) :
    t.ticksIn (n + 1) = t.ticksIn n := by
  rw [ticksIn, ticksIn, ← Nat.add_assoc, Nat.succ_div_of_not_dvd h]

theorem valueAfter_of_overflowsOn (h : t.OverflowsOn k) : t.valueAfter k = t.modulo.toNat := by
  obtain ⟨hle, hdvd⟩ := h
  rw [valueAfter, if_neg (Nat.not_lt.mpr hle), Nat.mod_eq_zero_of_dvd hdvd, Nat.add_zero]

/-- A tick overflows from the last value. -/
theorem overflowsOn_succ_iff : t.OverflowsOn (k + 1) ↔ t.valueAfter k = 255 := by
  have hcounter := t.counter.toNat_lt
  have hmodulo := t.modulo.toNat_lt
  unfold OverflowsOn valueAfter
  by_cases hearly : k < 256 - t.counter.toNat
  · rw [if_pos hearly]
    constructor
    · rintro ⟨hle, -⟩
      omega
    · intro hlast
      have hfirst : k + 1 - (256 - t.counter.toNat) = 0 := by omega
      exact ⟨by omega, hfirst ▸ Nat.dvd_zero _⟩
  · have hnumber : k + 1 - (256 - t.counter.toNat) = k - (256 - t.counter.toNat) + 1 := by omega
    rw [if_neg hearly, hnumber]
    constructor
    · rintro ⟨-, hdvd⟩
      have hlast := (mod_succ_of_dvd hdvd).2
      omega
    · intro hlast
      refine ⟨by omega, ?_⟩
      by_contra hnot
      have hnext := mod_succ_of_not_dvd hnot
      have hlt : (k - (256 - t.counter.toNat) + 1) % (256 - t.modulo.toNat) <
          256 - t.modulo.toNat := Nat.mod_lt _ (by omega)
      omega

theorem valueAfter_succ (h : ¬t.OverflowsOn (k + 1)) :
    t.valueAfter (k + 1) = t.valueAfter k + 1 := by
  have hcounter := t.counter.toNat_lt
  unfold OverflowsOn at h
  unfold valueAfter
  by_cases hearly : k + 1 < 256 - t.counter.toNat
  · rw [if_pos hearly, if_pos (by omega)]
    omega
  · have hlater : ¬k < 256 - t.counter.toNat := by
      intro hlast
      have hfirst : k + 1 - (256 - t.counter.toNat) = 0 := by omega
      exact h ⟨by omega, hfirst ▸ Nat.dvd_zero _⟩
    have hnumber : k + 1 - (256 - t.counter.toNat) = k - (256 - t.counter.toNat) + 1 := by omega
    rw [hnumber] at h
    have hnot : ¬256 - t.modulo.toNat ∣ k - (256 - t.counter.toNat) + 1 :=
      fun hdvd => h ⟨by omega, hdvd⟩
    rw [if_neg hearly, if_neg hlater, hnumber, mod_succ_of_not_dvd hnot]
    omega

theorem valueAfter_le (t : Timer) (k : Nat) : t.valueAfter k ≤ 255 := by
  have hcounter := t.counter.toNat_lt
  have hmodulo := t.modulo.toNat_lt
  have hlt : (k - (256 - t.counter.toNat)) % (256 - t.modulo.toNat) < 256 - t.modulo.toNat :=
    Nat.mod_lt _ (by omega)
  unfold valueAfter
  split <;> omega

theorem not_overflowsOn_zero (t : Timer) : ¬t.OverflowsOn 0 := by
  have hcounter := t.counter.toNat_lt
  rintro ⟨hle, -⟩
  omega

theorem ticksIn_zero (t : Timer) : t.ticksIn 0 = 0 := Nat.sub_self _

/-- An overflow is seen from any cycle before the next tick. -/
theorem overflowsAt_iff_of_lt {i r : Nat} (hr : r < period t.control) :
    t.OverflowsAt i ↔ t.OverflowsOn (t.ticksIn (i + r)) ∧ t.sinceTick (i + r) = r := by
  unfold OverflowsAt sinceTick
  have hdvd : period t.control ∣ t.divider.toNat + i ↔
      (t.divider.toNat + (i + r)) % period t.control = r := by
    rw [← Nat.add_assoc]
    constructor
    · rintro ⟨m, hm⟩
      rw [hm, Nat.mul_add_mod, Nat.mod_eq_of_lt hr]
    · intro hmod
      have hsub := Nat.dvd_sub_mod (n := period t.control) (t.divider.toNat + i + r)
      rwa [hmod, Nat.add_sub_cancel] at hsub
  rw [hdvd, and_comm]
  refine and_congr_left fun hmod => ?_
  obtain ⟨m, hm⟩ := hdvd.mpr hmod
  have hticks : t.ticksIn (i + r) = t.ticksIn i := by
    have hpos : 0 < period t.control := Nat.lt_of_le_of_lt (Nat.zero_le r) hr
    rw [ticksIn, ticksIn, ← Nat.add_assoc, hm, Nat.mul_add_div hpos, Nat.div_eq_of_lt hr,
      Nat.mul_div_cancel_left _ hpos, Nat.add_zero]
  rw [hticks]

/-- The cycles since a tick that overflowed have passed since the start. -/
theorem sinceTick_le (h : t.OverflowsOn (t.ticksIn n)) : t.sinceTick n ≤ n := by
  have hcounter := t.counter.toNat_lt
  obtain ⟨hle, -⟩ := h
  have hmore : t.divider.toNat / period t.control <
      (t.divider.toNat + n) / period t.control := by
    unfold ticksIn at hle
    omega
  have hmultiple : t.divider.toNat <
      (t.divider.toNat + n) / period t.control * period t.control := by
    by_contra hnot
    have hback := (Nat.le_div_iff_mul_le (period_pos _)).mpr (Nat.not_lt.mp hnot)
    omega
  have hsplit := Nat.div_add_mod' (t.divider.toNat + n) (period t.control)
  unfold sinceTick
  omega

/-- Once there are enough ticks, one of them has overflowed. -/
theorem exists_overflowsAt (h : 256 - t.counter.toNat ≤ t.ticksIn n) :
    ∃ i ≤ n, t.OverflowsAt i := by
  have hpos := period_pos t.control
  have hcounter := t.counter.toNat_lt
  have hlt := Nat.lt_div_mul_add (a := t.divider.toNat) hpos
  -- The first tick that overflows is where the divider reaches this multiple of the period.
  have hfirst : (t.divider.toNat / period t.control + (256 - t.counter.toNat)) *
      period t.control ≤ t.divider.toNat + n := by
    rw [← Nat.le_div_iff_mul_le hpos]
    unfold ticksIn at h
    omega
  have hafter : t.divider.toNat ≤
      (t.divider.toNat / period t.control + (256 - t.counter.toNat)) * period t.control := by
    have hnext := Nat.le_mul_of_pos_left (period t.control)
      (show 0 < 256 - t.counter.toNat by omega)
    rw [Nat.add_mul]
    omega
  obtain ⟨i, hi⟩ := Nat.exists_eq_add_of_le hafter
  refine ⟨i, by omega, ?_⟩
  have hticks : t.ticksIn i = 256 - t.counter.toNat := by
    rw [ticksIn, ← hi, Nat.mul_div_cancel _ hpos, Nat.add_sub_cancel_left]
  refine ⟨hi ▸ Nat.dvd_mul_left _ _, ?_⟩
  rw [hticks]
  exact ⟨Nat.le_refl _, Nat.sub_self (256 - t.counter.toNat) ▸ Nat.dvd_zero _⟩

/-- Ticks come at least sixteen cycles apart, so that the latest one overflowed if one of the last
four cycles was an overflow. -/
theorem exists_overflowsAt_iff :
    (∃ i, t.OverflowsAt i ∧ i ≤ n ∧ n < i + 4) ↔
      t.OverflowsOn (t.ticksIn n) ∧ t.sinceTick n < 4 := by
  have hperiod := period_cases t.control
  constructor
  · rintro ⟨i, hat, hle, hlt⟩
    have hseen := (overflowsAt_iff_of_lt (r := n - i) (by omega)).mp hat
    rw [Nat.add_sub_cancel' hle] at hseen
    exact ⟨hseen.1, by omega⟩
  · rintro ⟨hon, hlt⟩
    have hle := sinceTick_le hon
    refine ⟨n - t.sinceTick n, ?_, by omega, by omega⟩
    rw [overflowsAt_iff_of_lt (r := t.sinceTick n) (by omega), Nat.sub_add_cancel hle]
    exact ⟨hon, rfl⟩

/-- A reload comes with the fourth cycle after an overflow. -/
theorem exists_due_iff :
    (∃ k < n, t.OverflowsOn (t.ticksIn k) ∧ t.sinceTick k = 3) ↔
      ∃ i, t.OverflowsAt i ∧ i + 4 ≤ n := by
  have hperiod := period_cases t.control
  constructor
  · rintro ⟨k, hk, hon, hthree⟩
    have hle := sinceTick_le hon
    refine ⟨k - 3, ?_, by omega⟩
    rw [overflowsAt_iff_of_lt (r := 3) (by omega), Nat.sub_add_cancel (by omega)]
    exact ⟨hon, hthree⟩
  · rintro ⟨i, hat, hle⟩
    exact ⟨i + 3, by omega, (overflowsAt_iff_of_lt (by omega)).mp hat⟩

end Timer

end Handheld
