import Handheld.Proofs.Timer.Ticks
import Mathlib.Data.Nat.Find
import Mathlib.Order.Bounds.Defs

/-!
The running timer in closed form. Between accesses a timer is a function of the cycles that pass:
the divider counts them, the counter counts ticks and starts again at the modulo, and each overflow
shows zero for four cycles before the reload that raises the interrupt.
-/
namespace Handheld

/-- Five cycles after an overflow all of it is over. -/
theorem Overflow.iterate_next_of_le (value : UInt8) {n : Nat} (h : 5 ≤ n) :
    next^[n] (pending value Timer.reloadDelay) = idle := by
  obtain ⟨m, rfl⟩ := Nat.exists_eq_add_of_le' h
  rw [Function.iterate_add_apply]
  exact Function.iterate_fixed rfl m

namespace Timer

theorem control_cycle (t : Timer) : t.cycle.control = t.control := by
  rw [cycle_eq]

theorem oldModulo_cycle (t : Timer) : t.cycle.oldModulo = none := by
  rw [cycle_eq]

theorem oldModulo_step (t : Timer) {n : Nat} (h : n ≠ 0) : (t.step n).1.oldModulo = none := by
  obtain ⟨m, rfl⟩ := Nat.exists_eq_succ_of_ne_zero h
  rw [step_eq, Function.iterate_succ_apply']
  exact oldModulo_cycle _

/-- Only a write to the modulo leaves its old value behind. -/
theorem oldModulo_write {t : Timer} (h : t.oldModulo = none) {addr : UInt16} (haddr : addr ≠ 0xFF06)
    (v : UInt8) : (t.write addr v).1.oldModulo = none := by
  have hedge : ∀ (s : Timer) before, (s.edge before).oldModulo = none := by
    intro s before
    rw [edge_eq]
  unfold write
  split
  · rw [clearDivider_eq]
    exact hedge _ _
  · unfold writeCounter
    split <;> exact h
  · exact absurd rfl haddr
  · exact hedge _ _
  · exact h

/-- The timer `n` cycles later, while it ticks. -/
structure Course (t : Timer) (n : Nat) (s : Timer) : Prop where
  divider_eq : s.divider.toNat = (t.divider.toNat + n) % 65536
  control_eq : s.control = t.control
  modulo_eq : s.modulo = t.modulo
  oldModulo_eq : s.oldModulo = none
  settled : s.Settled
  /-- After any other tick the counter shows its value. -/
  counted : ¬t.OverflowsOn (t.ticksIn n) →
    s.overflow = .idle ∧ s.counter.toNat = t.valueAfter (t.ticksIn n)
  /-- After a tick that overflowed it shows zero, and the modulo from the fourth cycle on. -/
  overflowed : t.OverflowsOn (t.ticksIn n) →
    s.overflow = Overflow.next^[t.sinceTick n] (.pending t.modulo reloadDelay) ∧
      s.counter.toNat = if t.sinceTick n < 4 then 0 else t.valueAfter (t.ticksIn n)

variable {t s : Timer} {n : Nat}

theorem course_zero (h : t.Settled) (hidle : t.overflow = .idle) (hold : t.oldModulo = none) :
    Course t 0 t where
  divider_eq := (Nat.mod_eq_of_lt t.divider.toNat_lt).symm
  control_eq := rfl
  modulo_eq := rfl
  oldModulo_eq := hold
  settled := h
  counted _ := by
    have hcounter := t.counter.toNat_lt
    rw [ticksIn_zero, valueAfter, if_pos (by omega)]
    exact ⟨hidle, rfl⟩
  overflowed hon := by
    rw [ticksIn_zero] at hon
    exact absurd hon t.not_overflowsOn_zero

/-- A reload is due in the fourth cycle after an overflow. -/
theorem Course.reloads_iff (hc : Course t n s) :
    s.reloads = true ↔ t.OverflowsOn (t.ticksIn n) ∧ t.sinceTick n = 3 := by
  rw [Timer.reloads_iff]
  by_cases hon : t.OverflowsOn (t.ticksIn n)
  · rw [(hc.overflowed hon).1]
    constructor
    · rintro ⟨value, hdue⟩
      have hstart := Overflow.iterate_next_eq_pending hdue
      obtain ⟨-, hdelay⟩ := Overflow.pending.inj hstart
      unfold reloadDelay at hdelay
      exact ⟨hon, by omega⟩
    · rintro ⟨-, hthree⟩
      rw [hthree]
      exact ⟨t.modulo, rfl⟩
  · rw [(hc.counted hon).1]
    constructor
    · rintro ⟨value, hdue⟩
      cases hdue
    · exact fun h => absurd h.1 hon

/-- Once reloaded the counter shows its value, and zero before that. -/
theorem Course.reloaded_eq (hc : Course t n s) :
    s.reloaded.toNat =
      if t.OverflowsOn (t.ticksIn n) ∧ t.sinceTick n < 3 then 0
      else t.valueAfter (t.ticksIn n) := by
  cases hreloads : s.reloads with
  | true =>
    obtain ⟨hon, hthree⟩ := hc.reloads_iff.mp hreloads
    have hstate := (hc.overflowed hon).1
    rw [hthree] at hstate
    have hdue : s.overflow = .pending t.modulo 0 := hstate
    rw [reloaded_of_pending hdue, if_neg (by omega), valueAfter_of_overflowsOn hon]
  | false =>
    have hnot : ¬(t.OverflowsOn (t.ticksIn n) ∧ t.sinceTick n = 3) := by
      rw [← hc.reloads_iff, hreloads]
      exact Bool.false_ne_true
    rw [reloaded_of_not_reloads hreloads]
    by_cases hon : t.OverflowsOn (t.ticksIn n)
    · have hne : t.sinceTick n ≠ 3 := fun h => hnot ⟨hon, h⟩
      rw [(hc.overflowed hon).2]
      by_cases hearly : t.sinceTick n < 3
      · rw [if_pos (by omega), if_pos ⟨hon, hearly⟩]
      · rw [if_neg (by omega), if_neg (fun h => hearly h.2)]
    · rw [(hc.counted hon).2, if_neg (fun h => hon h.1)]

theorem Course.falls_iff (hc : Course t n s) (henabled : t.control &&& 0x04 ≠ 0) :
    s.falls = true ↔ period t.control ∣ t.divider.toNat + n + 1 := by
  rw [falls_iff_dvd hc.settled (hc.control_eq ▸ henabled), hc.control_eq, hc.divider_eq]
  have hperiod := period_cases t.control
  obtain h | h | h | h := hperiod <;> rw [h] <;> omega

/-- The fields that every cycle treats alike. -/
theorem Course.cycle_of (hc : Course t n s)
    (hcounted : ¬t.OverflowsOn (t.ticksIn (n + 1)) →
      s.cycle.overflow = .idle ∧ s.cycle.counter.toNat = t.valueAfter (t.ticksIn (n + 1)))
    (hoverflowed : t.OverflowsOn (t.ticksIn (n + 1)) →
      s.cycle.overflow = Overflow.next^[t.sinceTick (n + 1)] (.pending t.modulo reloadDelay) ∧
        s.cycle.counter.toNat =
          if t.sinceTick (n + 1) < 4 then 0 else t.valueAfter (t.ticksIn (n + 1))) :
    Course t (n + 1) s.cycle where
  divider_eq := by
    have hone : (1 : UInt16).toNat = 1 := rfl
    rw [cycle_eq]
    dsimp only
    rw [UInt16.toNat_add, hc.divider_eq, hone]
    omega
  control_eq := s.control_cycle.trans hc.control_eq
  modulo_eq := by rw [cycle_eq, ← hc.modulo_eq]
  oldModulo_eq := s.oldModulo_cycle
  settled := settled_cycle s
  counted := hcounted
  overflowed := hoverflowed

/-- Between ticks only the delay of a reload goes on. -/
theorem Course.between (hc : Course t n s) (henabled : t.control &&& 0x04 ≠ 0)
    (hnot : ¬period t.control ∣ t.divider.toNat + n + 1) : Course t (n + 1) s.cycle := by
  have hfalls : s.falls = false := by
    rw [Bool.eq_false_iff, Ne, hc.falls_iff henabled]
    exact hnot
  have hticks := ticksIn_succ_of_not_dvd hnot
  have hsince : t.sinceTick (n + 1) = t.sinceTick n + 1 := mod_succ_of_not_dvd hnot
  have hcounter : s.cycle.counter = s.reloaded := by
    rw [cycle_eq, hfalls]
    rfl
  have hoverflow : s.cycle.overflow = s.overflow.next := by
    rw [overflow_cycle, overflows, hfalls]
    rfl
  apply hc.cycle_of
  · intro hon
    rw [hticks] at hon ⊢
    rw [hcounter, hoverflow, hc.reloaded_eq, (hc.counted hon).1, if_neg (fun h => hon h.1)]
    exact ⟨rfl, rfl⟩
  · intro hon
    rw [hticks] at hon ⊢
    rw [hcounter, hoverflow, hc.reloaded_eq, (hc.overflowed hon).1, hsince,
      Function.iterate_succ_apply']
    refine ⟨rfl, ?_⟩
    by_cases hearly : t.sinceTick n < 3
    · rw [if_pos ⟨hon, hearly⟩, if_pos (by omega)]
    · rw [if_neg (fun h => hearly h.2), if_neg (by omega)]

/-- By the next tick every reload is over. -/
theorem Course.idle_of_dvd (hc : Course t n s)
    (hdvd : period t.control ∣ t.divider.toNat + n + 1) :
    s.overflow = .idle ∧ s.reloaded.toNat = t.valueAfter (t.ticksIn n) := by
  have hperiod := period_cases t.control
  have hlast : t.sinceTick n + 1 = period t.control := (mod_succ_of_dvd hdvd).2
  rw [hc.reloaded_eq, if_neg (by omega)]
  refine ⟨?_, rfl⟩
  by_cases hon : t.OverflowsOn (t.ticksIn n)
  · rw [(hc.overflowed hon).1]
    exact Overflow.iterate_next_of_le t.modulo (by omega)
  · exact (hc.counted hon).1

/-- The overflows of the timer are those that the number of ticks tells. -/
theorem Course.overflows_iff (hc : Course t n s) (henabled : t.control &&& 0x04 ≠ 0) :
    s.overflows = true ↔ t.OverflowsAt (n + 1) := by
  rw [overflows, Bool.and_eq_true, hc.falls_iff henabled, beq_iff_eq, OverflowsAt]
  refine and_congr_right fun hdvd => ?_
  have hlast : (0xFF : UInt8).toNat = 255 := rfl
  rw [← UInt8.toNat_inj, (hc.idle_of_dvd hdvd).2, hlast, ticksIn_succ_of_dvd hdvd,
    overflowsOn_succ_iff]

/-- A tick counts on, and overflows from the last value. -/
theorem Course.tick (hc : Course t n s) (henabled : t.control &&& 0x04 ≠ 0)
    (hdvd : period t.control ∣ t.divider.toNat + n + 1) : Course t (n + 1) s.cycle := by
  have hfalls : s.falls = true := (hc.falls_iff henabled).mpr hdvd
  have hticks := ticksIn_succ_of_dvd hdvd
  have hsince : t.sinceTick (n + 1) = 0 := (mod_succ_of_dvd hdvd).1
  obtain ⟨hidle, hvalue⟩ := hc.idle_of_dvd hdvd
  have hle := t.valueAfter_le (t.ticksIn n)
  have hone : (1 : UInt8).toNat = 1 := rfl
  have hcounter : s.cycle.counter.toNat = (t.valueAfter (t.ticksIn n) + 1) % 256 := by
    rw [cycle_eq, hfalls]
    dsimp only
    rw [if_pos rfl, UInt8.toNat_add, hvalue, hone]
  have hoverflows := hc.overflows_iff henabled
  apply hc.cycle_of
  · intro hon
    have hnot : s.overflows = false := by
      rw [Bool.eq_false_iff, Ne, hoverflows]
      exact fun hat => hon hat.2
    rw [hticks] at hon ⊢
    have hne : t.valueAfter (t.ticksIn n) ≠ 255 := fun h => hon (overflowsOn_succ_iff.mpr h)
    rw [hcounter, overflow_cycle, hnot, hidle, valueAfter_succ hon]
    refine ⟨rfl, ?_⟩
    omega
  · intro hon
    have hoverflow : s.overflows = true := hoverflows.mpr ⟨hdvd, hon⟩
    rw [hticks] at hon
    have hfull := overflowsOn_succ_iff.mp hon
    rw [hcounter, overflow_cycle, hoverflow, hc.oldModulo_eq, hc.modulo_eq, hsince, hfull]
    exact ⟨rfl, rfl⟩

theorem Course.cycle (hc : Course t n s) (henabled : t.control &&& 0x04 ≠ 0) :
    Course t (n + 1) s.cycle := by
  by_cases hdvd : period t.control ∣ t.divider.toNat + n + 1
  · exact hc.tick henabled hdvd
  · exact hc.between henabled hdvd

theorem course (h : t.Settled) (hidle : t.overflow = .idle) (hold : t.oldModulo = none)
    (henabled : t.control &&& 0x04 ≠ 0) (n : Nat) : Course t n (Timer.cycle^[n] t) := by
  induction n with
  | zero => exact course_zero h hidle hold
  | succ n ih =>
    rw [Function.iterate_succ_apply']
    exact ih.cycle henabled

/-- What the counter shows is its value, but zero in the four cycles from an overflow on. -/
theorem Course.counter_eq (hc : Course t n s) :
    s.counter.toNat =
      if t.OverflowsOn (t.ticksIn n) ∧ t.sinceTick n < 4 then 0
      else t.valueAfter (t.ticksIn n) := by
  by_cases hon : t.OverflowsOn (t.ticksIn n)
  · rw [(hc.overflowed hon).2]
    by_cases hearly : t.sinceTick n < 4
    · rw [if_pos hearly, if_pos ⟨hon, hearly⟩]
    · rw [if_neg hearly, if_neg (fun h => hearly h.2)]
  · rw [(hc.counted hon).2, if_neg (fun h => hon h.1)]

/-- The interrupt is raised where an overflow is four cycles old. -/
theorem raised_iff (h : t.Settled) (hidle : t.overflow = .idle) (hold : t.oldModulo = none)
    (henabled : t.control &&& 0x04 ≠ 0) (n : Nat) :
    (timeline n t).any reloads = true ↔ ∃ i, t.OverflowsAt i ∧ i + 4 ≤ n := by
  rw [List.any_eq_true, ← exists_due_iff]
  constructor
  · rintro ⟨s, hs, hreloads⟩
    obtain ⟨k, hk, rfl⟩ := mem_timeline.mp hs
    exact ⟨k, hk, (course h hidle hold henabled k).reloads_iff.mp hreloads⟩
  · rintro ⟨k, hk, hdue⟩
    exact ⟨Timer.cycle^[k] t, mem_timeline.mpr ⟨k, hk, rfl⟩,
      (course h hidle hold henabled k).reloads_iff.mpr hdue⟩

/-- A timer without ticks. -/
structure Still (t s : Timer) : Prop where
  counter_eq : s.counter = t.counter
  control_eq : s.control = t.control
  overflow_eq : s.overflow = .idle
  settled : s.Settled

theorem Still.cycle (hs : Still t s) (hdisabled : t.control &&& 0x04 = 0) : Still t s.cycle := by
  have hfalls : s.falls = false := falls_of_disabled hs.settled (hs.control_eq ▸ hdisabled)
  have hreloads : s.reloads = false := by
    rw [reloads, hs.overflow_eq]
  refine ⟨?_, s.control_cycle.trans hs.control_eq, ?_, settled_cycle s⟩
  · rw [cycle_eq, hfalls, ← hs.counter_eq, ← reloaded_of_not_reloads hreloads]
    rfl
  · rw [overflow_cycle, overflows, hfalls, hs.overflow_eq]
    rfl

theorem still (h : t.Settled) (hidle : t.overflow = .idle) (hdisabled : t.control &&& 0x04 = 0)
    (n : Nat) : Still t (Timer.cycle^[n] t) := by
  induction n with
  | zero => exact ⟨rfl, rfl, hidle, h⟩
  | succ n ih =>
    rw [Function.iterate_succ_apply']
    exact ih.cycle hdisabled

theorem not_raised (h : t.Settled) (hidle : t.overflow = .idle)
    (hdisabled : t.control &&& 0x04 = 0) (n : Nat) : (timeline n t).any reloads = false := by
  rw [List.any_eq_false]
  intro s hs
  obtain ⟨k, -, rfl⟩ := mem_timeline.mp hs
  rw [reloads, (still h hidle hdisabled k).overflow_eq]
  exact Bool.false_ne_true

/-- Where a timer stands after `n` cycles, and what they raised. -/
structure RunsTo (t : Timer) (n : Nat) (after : Timer × Requests) : Prop where
  divider_eq : after.1.divider.toNat = (t.divider.toNat + n) % 65536
  before_overflow : t.ticksIn n < 256 - t.counter.toNat →
    after.1.counter.toNat = t.counter.toNat + t.ticksIn n ∧ after.2 = 0
  after_overflow : 256 - t.counter.toNat ≤ t.ticksIn n →
    ∃ last, IsGreatest {i | t.OverflowsAt i ∧ i ≤ n} last ∧
      after.1.counter.toNat =
        if n < last + 4 then 0
        else t.modulo.toNat +
          (t.ticksIn n - (256 - t.counter.toNat)) % (256 - t.modulo.toNat)
  raises : (∃ i, t.OverflowsAt i ∧ i + 4 ≤ n) → after.2 = Interrupt.timer.mask
  raises_nothing : (¬∃ i, t.OverflowsAt i ∧ i + 4 ≤ n) → after.2 = 0
  overflows_iff : ∀ i < n, (Timer.cycle^[i] t).overflows = true ↔ t.OverflowsAt (i + 1)

/-- A latest overflow, and whether it is one of the last four cycles. -/
theorem exists_last_overflow (h : 256 - t.counter.toNat ≤ t.ticksIn n) :
    ∃ last, IsGreatest {i | t.OverflowsAt i ∧ i ≤ n} last ∧
      (n < last + 4 ↔ t.OverflowsOn (t.ticksIn n) ∧ t.sinceTick n < 4) := by
  obtain ⟨i, hi, hat⟩ := exists_overflowsAt h
  have hlast := Nat.findGreatest_spec hi hat
  have hle := Nat.findGreatest_le (P := t.OverflowsAt) n
  refine ⟨Nat.findGreatest t.OverflowsAt n, ⟨⟨hlast, hle⟩, ?_⟩, ?_⟩
  · rintro j ⟨hj, hjn⟩
    exact Nat.le_findGreatest hjn hj
  · rw [← exists_overflowsAt_iff]
    constructor
    · intro hlate
      exact ⟨_, hlast, hle, hlate⟩
    · rintro ⟨j, hj, hjn, hlate⟩
      have hjlast := Nat.le_findGreatest hjn hj
      omega

/-- Before the first overflow no interrupt is raised. -/
theorem not_exists_overflowsAt (h : t.ticksIn n < 256 - t.counter.toNat) :
    ¬∃ i, t.OverflowsAt i ∧ i + 4 ≤ n := by
  rintro ⟨i, ⟨-, hon, -⟩, hi⟩
  have hle : t.ticksIn i ≤ t.ticksIn n := by
    apply Nat.sub_le_sub_right
    exact Nat.div_le_div_right (by omega)
  omega

/-- The running timer in closed form, however many cycles pass, from every state in which no
reload is on its way and the modulo has not been written since the last cycle. The latter is what
an empty `oldModulo` says, by `oldModulo_step` and `oldModulo_write`. -/
theorem step_closed_form (h : Reachable t) (hidle : t.overflow = .idle) (hold : t.oldModulo = none)
    (n : Nat) :
    (t.control &&& 0x04 ≠ 0 → RunsTo t n (t.step n)) ∧
      (t.control &&& 0x04 = 0 → (t.step n).1.counter = t.counter ∧ (t.step n).2 = 0) := by
  rw [step_eq]
  constructor
  · intro henabled
    have hc := course h.settled hidle hold henabled n
    have hraised := raised_iff h.settled hidle hold henabled n
    have hquiet : (¬∃ i, t.OverflowsAt i ∧ i + 4 ≤ n) →
        requests ((timeline n t).any reloads) = 0 := by
      intro hnone
      rw [← hraised, Bool.not_eq_true] at hnone
      rw [hnone]
      rfl
    refine ⟨hc.divider_eq, ?_, ?_, ?_, hquiet, ?_⟩
    · intro hearly
      refine ⟨?_, hquiet (not_exists_overflowsAt hearly)⟩
      rw [hc.counter_eq, if_neg (fun hon => Nat.not_le_of_lt hearly hon.1.1), valueAfter,
        if_pos hearly]
    · intro hlate
      obtain ⟨last, hgreatest, hshown⟩ := exists_last_overflow hlate
      refine ⟨last, hgreatest, ?_⟩
      rw [hc.counter_eq, valueAfter, if_neg (Nat.not_lt.mpr hlate)]
      simp only [hshown]
    · intro hsome
      rw [hraised.mpr hsome]
      rfl
    · intro i _
      exact (course h.settled hidle hold henabled i).overflows_iff henabled
  · intro hdisabled
    have hstill := still h.settled hidle hdisabled n
    refine ⟨hstill.counter_eq, ?_⟩
    rw [not_raised h.settled hidle hdisabled n]
    rfl

/-- A timer that starts again two below the last value, a tick before its first overflow. -/
def nearlyFull : Timer :=
  let written := ((postBoot.write 0xFF06 0xFE).1.write 0xFF05 0xFF).1
  ((written.step 4).1.write 0xFF07 0x05).1

theorem reachable_nearlyFull : Reachable nearlyFull :=
  (((Reachable.reset.write _ _).write _ _).step 4).write _ _

theorem oldModulo_nearlyFull : nearlyFull.oldModulo = none :=
  oldModulo_write (oldModulo_step _ (by decide)) (show (0xFF07 : UInt16) ≠ 0xFF06 by decide) 0x05

/-- The third overflow shows zero in its fourth cycle and the modulo in the next. -/
theorem step_closed_form_nearlyFull :
    (nearlyFull.overflow = .idle ∧ nearlyFull.oldModulo = none ∧
        nearlyFull.control &&& 0x04 ≠ 0) ∧
      (nearlyFull.step 83).1.counter.toNat = 0 ∧
      (nearlyFull.step 84).1.counter.toNat = 0xFE ∧
      (nearlyFull.step 84).2 = Interrupt.timer.mask := by
  have hidle : nearlyFull.overflow = .idle := by decide
  have henabled : nearlyFull.control &&& 0x04 ≠ 0 := by decide
  have hthird : nearlyFull.OverflowsAt 80 := by decide
  have hcourse := fun n =>
    (step_closed_form reachable_nearlyFull hidle oldModulo_nearlyFull n).1 henabled
  obtain ⟨last, hlast, hzero⟩ := (hcourse 83).after_overflow (by decide)
  obtain ⟨last', hlast', hmodulo⟩ := (hcourse 84).after_overflow (by decide)
  refine ⟨⟨hidle, oldModulo_nearlyFull, henabled⟩, ?_, ?_, ?_⟩
  · have hle : 80 ≤ last := hlast.2 ⟨hthird, by omega⟩
    rw [hzero, if_pos (by omega)]
  · obtain ⟨hat, hle⟩ := hlast'.1
    have hnot : ¬84 < last' + 4 := by
      intro hlater
      have hcases : last' = 81 ∨ last' = 82 ∨ last' = 83 ∨ last' = 84 := by
        change last' ≤ 84 at hle
        omega
      rcases hcases with rfl | rfl | rfl | rfl <;> exact absurd hat (by decide)
    rw [hmodulo, if_neg hnot]
    decide
  · exact (hcourse 84).raises ⟨80, hthird, Nat.le_refl 84⟩

end Timer

end Handheld
