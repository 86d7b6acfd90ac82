import Handheld.Proofs.Timer.Cycle

/-!
The timer over whole machine cycles. Between two of them it stands on a multiple of four with
no earlier modulo kept, and a reload that is due then has its full delay. A register write, which
comes before the cycles of its access, may take one cycle of that delay; four cycles lead back
to such a state.
-/
namespace Handheld

namespace Overflow

theorem next_eq_pending {o : Overflow} {value : UInt8} {delay : Nat}
    (h : o.next = .pending value delay) : o = .pending value (delay + 1) := by
  match o with
  | idle | reloading | pending _ 0 => cases h
  | pending _ (_ + 1) =>
    cases h
    rfl

theorem next_eq_reloading_iff {o : Overflow} :
    o.next = .reloading ↔ ∃ value, o = .pending value 0 := by
  match o with
  | idle | reloading | pending _ 0 | pending _ (_ + 1) => simp [next]

theorem iterate_next_eq_pending {o : Overflow} {value : UInt8} {delay n : Nat}
    (h : next^[n] o = .pending value delay) : o = .pending value (delay + n) := by
  induction n generalizing delay with
  | zero => exact h
  | succ n ih =>
    rw [Function.iterate_succ_apply'] at h
    rw [ih (next_eq_pending h), Nat.add_assoc, Nat.add_comm 1 n]

theorem iterate_next_pending (value : UInt8) (delay n : Nat) :
    next^[n] (.pending value (delay + n)) = .pending value delay := by
  induction n generalizing delay with
  | zero => rfl
  | succ n ih => rw [Function.iterate_succ_apply, ← Nat.add_assoc, next, ih]

end Overflow

namespace Timer

/-- The watched bit falls within the next four cycles. -/
def fallsSoon (t : Timer) : Bool := t.signal && !signalOf (t.divider + 4) t.control

/-- The timer when the four cycles of a machine cycle begin. -/
structure Steady (t : Timer) : Prop where
  divider_mod : t.divider.toNat % 4 = 0
  lastSignal_eq : t.lastSignal = t.signal
  pending : ∀ value delay, t.overflow = .pending value delay →
    value = t.modulo ∧ delay ≤ reloadDelay ∧ t.fallsSoon = false

/-- The timer between machine cycles. -/
structure Aligned (t : Timer) : Prop where
  divider_mod : t.divider.toNat % 4 = 0
  lastSignal_eq : t.lastSignal = t.signal
  oldModulo_eq : t.oldModulo = none
  pending : ∀ value delay, t.overflow = .pending value delay →
    value = t.modulo ∧ delay = reloadDelay ∧ t.divider.toNat % 16 = 0

theorem aligned_postBoot : Aligned postBoot where
  divider_mod := rfl
  lastSignal_eq := rfl
  oldModulo_eq := rfl
  pending _ _ h := by cases h

theorem fallsSoon_of_mod {t : Timer} (h : t.divider.toNat % 16 = 0) : t.fallsSoon = false := by
  rw [fallsSoon, signalOf_add_four h, signal, Bool.and_not_self]

theorem Aligned.steady {t : Timer} (h : t.Aligned) : t.Steady where
  divider_mod := h.divider_mod
  lastSignal_eq := h.lastSignal_eq
  pending value delay hpending := by
    obtain ⟨hvalue, hdelay, hmod⟩ := h.pending value delay hpending
    exact ⟨hvalue, Nat.le_of_eq hdelay, fallsSoon_of_mod hmod⟩

/-- The timer `n` cycles later, if the watched bit has not fallen. -/
structure Quiet (t : Timer) (n : Nat) (s : Timer) : Prop where
  divider_eq : s.divider = t.divider + UInt16.ofNat n
  control_eq : s.control = t.control
  modulo_eq : s.modulo = t.modulo
  lastSignal_eq : s.lastSignal = t.signal
  overflow_eq : s.overflow = Overflow.next^[n] t.overflow

variable {t s : Timer} {n : Nat}

theorem Steady.quiet_zero (h : t.Steady) : Quiet t 0 t where
  divider_eq := (UInt16.add_zero _).symm
  control_eq := rfl
  modulo_eq := rfl
  lastSignal_eq := h.lastSignal_eq
  overflow_eq := rfl

theorem Quiet.falls_eq (hq : Quiet t n s) :
    s.falls = (t.signal && !signalOf (t.divider + UInt16.ofNat (n + 1)) t.control) := by
  rw [falls, hq.lastSignal_eq, hq.divider_eq, hq.control_eq, UInt16.add_assoc, UInt16.ofNat_add]
  rfl

theorem Quiet.falls_of_lt (hq : Quiet t n s) (h : t.Steady) (hn : n < 3) : s.falls = false := by
  rw [hq.falls_eq, signalOf_add_of_lt h.divider_mod (by omega), signal, Bool.and_not_self]

theorem Quiet.falls_last (hq : Quiet t 3 s) : s.falls = t.fallsSoon := hq.falls_eq

theorem Quiet.cycle (hq : Quiet t n s) (h : t.Steady) (hn : n < 3) : Quiet t (n + 1) s.cycle where
  divider_eq := by
    rw [cycle_eq]
    dsimp only
    rw [hq.divider_eq, UInt16.add_assoc, UInt16.ofNat_add]
    rfl
  control_eq := by rw [cycle_eq, ← hq.control_eq]
  modulo_eq := by rw [cycle_eq, ← hq.modulo_eq]
  lastSignal_eq := by
    rw [cycle_eq]
    dsimp only
    rw [hq.divider_eq, hq.control_eq, UInt16.add_assoc, signal,
      ← signalOf_add_of_lt (k := n + 1) h.divider_mod (by omega), UInt16.ofNat_add]
    rfl
  overflow_eq := by
    rw [cycle_eq]
    dsimp only
    rw [overflows, hq.falls_of_lt h hn, Bool.false_and, if_neg Bool.false_ne_true,
      hq.overflow_eq, Function.iterate_succ_apply']

theorem Steady.quiet (h : t.Steady) (hn : n ≤ 3) : Quiet t n (Timer.cycle^[n] t) := by
  induction n with
  | zero => exact h.quiet_zero
  | succ n ih =>
    rw [Function.iterate_succ_apply']
    exact (ih (by omega)).cycle h (by omega)

theorem Quiet.due_iff (hq : Quiet t n s) (value : UInt8) :
    s.overflow = .pending value 0 ↔ t.overflow = .pending value n := by
  rw [hq.overflow_eq]
  constructor
  · intro hdue
    rw [Overflow.iterate_next_eq_pending hdue, Nat.zero_add]
  · intro hpending
    have hnext := Overflow.iterate_next_pending value 0 n
    rwa [Nat.zero_add, ← hpending] at hnext

/-- A reload that is made takes the modulo of that cycle. -/
theorem Quiet.counter_cycle (hq : Quiet t n s) (h : t.Steady) (hn : n ≤ 3)
    (hreloads : s.reloads = true) : s.cycle.counter = s.modulo := by
  obtain ⟨value, hdue⟩ := s.reloads_iff.mp hreloads
  obtain ⟨hvalue, -, hsoon⟩ := h.pending _ _ ((hq.due_iff value).mp hdue)
  have hfalls : s.falls = false := by
    obtain hlt | rfl : n < 3 ∨ n = 3 := by omega
    · exact hq.falls_of_lt h hlt
    · rw [hq.falls_last, hsoon]
  rw [cycle_eq]
  dsimp only
  rw [hfalls, if_neg Bool.false_ne_true, reloaded_of_pending hdue, hvalue, hq.modulo_eq]

theorem overflow_cycle (s : Timer) :
    s.cycle.overflow =
      if s.overflows then .pending (s.oldModulo.getD s.modulo) reloadDelay
      else s.overflow.next := by
  rw [cycle_eq]

/-- A reload that was due before four cycles is no longer due after them. -/
theorem Quiet.next_ne_pending (hq : Quiet t 3 s) (h : t.Steady) (value : UInt8) (delay : Nat) :
    s.overflow.next ≠ .pending value delay := by
  intro hnext
  have hdue := Overflow.next_eq_pending hnext
  rw [hq.overflow_eq] at hdue
  obtain ⟨-, hle, -⟩ := h.pending _ _ (Overflow.iterate_next_eq_pending hdue)
  unfold reloadDelay at hle
  omega

theorem Quiet.pending_iff (hq : Quiet t 3 s) (h : t.Steady) :
    (∃ value delay, s.cycle.overflow = .pending value delay) ↔ s.overflows = true := by
  rw [overflow_cycle]
  cases hoverflows : s.overflows with
  | false =>
    have hnot := hq.next_ne_pending h
    simp [hnot]
  | true => simp

theorem Quiet.reloading_iff (hq : Quiet t 3 s) (h : t.Steady) :
    s.cycle.overflow = .reloading ↔ s.reloads = true := by
  rw [overflow_cycle, reloads_iff, ← Overflow.next_eq_reloading_iff]
  cases hoverflows : s.overflows with
  | false => rw [if_neg Bool.false_ne_true]
  | true =>
    rw [if_pos rfl]
    constructor
    · nofun
    · intro hreloading
      obtain ⟨value, hdue⟩ := Overflow.next_eq_reloading_iff.mp hreloading
      -- A fall would be soon, and a due reload excludes that.
      obtain ⟨-, -, hsoon⟩ := h.pending _ _ ((hq.due_iff value).mp hdue)
      rw [overflows, hq.falls_last, hsoon, Bool.false_and] at hoverflows
      cases hoverflows

theorem Quiet.aligned_cycle (hq : Quiet t 3 s) (h : t.Steady) (hold : s.oldModulo = none) :
    s.cycle.Aligned := by
  have hdivider : s.cycle.divider = t.divider + 4 := by
    rw [cycle_eq]
    dsimp only
    rw [hq.divider_eq, UInt16.add_assoc]
    rfl
  refine ⟨?_, ?_, ?_, ?_⟩
  · have hmod := h.divider_mod
    have hfour : (4 : UInt16).toNat = 4 := rfl
    rw [hdivider, UInt16.toNat_add, hfour]
    omega
  · rw [cycle_eq]
    rfl
  · rw [cycle_eq]
  · intro value delay hpending
    have hoverflows : s.overflows = true := (hq.pending_iff h).mp ⟨value, delay, hpending⟩
    rw [overflow_cycle, hoverflows, if_pos rfl, hold] at hpending
    rw [overflows, hq.falls_last, fallsSoon] at hoverflows
    simp only [Bool.and_eq_true, Bool.not_eq_true'] at hoverflows
    have hmodulo : s.cycle.modulo = s.modulo := by rw [cycle_eq]
    cases hpending
    refine ⟨hmodulo.symm, rfl, ?_⟩
    rw [hdivider]
    exact divider_mod_of_fall h.divider_mod hoverflows.1.1 hoverflows.1.2

theorem Steady.reloads_eq_false (h : t.Steady) (hidle : t.overflow = .idle) :
    ∀ u ∈ timeline 4 t, u.reloads = false := by
  intro u hu
  obtain ⟨n, hn, rfl⟩ := mem_timeline.mp hu
  apply Bool.eq_false_iff.mpr
  intro hreloads
  obtain ⟨value, hdue⟩ := (reloads_iff _).mp hreloads
  have hpending := ((h.quiet (Nat.le_of_lt_succ hn)).due_iff value).mp hdue
  rw [hidle] at hpending
  cases hpending

/-- What the cycles of a run tell about the timer after it. -/
structure Recorded (cycles : List Timer) (t : Timer) : Prop where
  aligned : t.Aligned
  counter_cycle : ∀ s ∈ cycles, s.reloads = true → s.cycle.counter = s.modulo
  pending_iff : (∃ value delay, t.overflow = .pending value delay) ↔
    ∃ s, cycles.getLast? = some s ∧ s.overflows = true
  reloading_iff : t.overflow = .reloading ↔
    ∃ s, cycles.getLast? = some s ∧ s.reloads = true

theorem recorded_postBoot : Recorded [] postBoot where
  aligned := aligned_postBoot
  counter_cycle _ hs := by cases hs
  pending_iff := by simp [postBoot, cleared]
  reloading_iff := by simp [postBoot, cleared]

variable {cycles : List Timer}

theorem getLast?_timeline_four (t : Timer) : (timeline 4 t).getLast? = some (cycle^[3] t) := rfl

/-- Four more cycles. -/
theorem Recorded.four (hr : Recorded cycles s) (h : t.Steady) :
    Recorded (cycles ++ timeline 4 t) (cycle^[4] t) := by
  have hq : Quiet t 3 (cycle^[3] t) := h.quiet (Nat.le_refl 3)
  have hlast : (cycles ++ timeline 4 t).getLast? = some (cycle^[3] t) := by
    rw [List.getLast?_append, getLast?_timeline_four]
    rfl
  have hold : (cycle^[3] t).oldModulo = none := by
    rw [Function.iterate_succ_apply', cycle_eq]
  rw [Function.iterate_succ_apply']
  refine ⟨hq.aligned_cycle h hold, ?_, ?_, ?_⟩
  · intro u hu hreloads
    rw [List.mem_append] at hu
    obtain hu | hu := hu
    · exact hr.counter_cycle u hu hreloads
    · obtain ⟨n, hn, rfl⟩ := mem_timeline.mp hu
      exact (h.quiet (Nat.le_of_lt_succ hn)).counter_cycle h (Nat.le_of_lt_succ hn) hreloads
  · rw [hq.pending_iff h, hlast]
    simp
  · rw [hq.reloading_iff h, hlast]
    simp

/-- Any number of machine cycles more. -/
theorem Recorded.machineCycles (hr : Recorded cycles t) (n : Nat) :
    Recorded (cycles ++ timeline (4 * n) t) (cycle^[4 * n] t) := by
  induction n with
  | zero =>
    rw [Nat.mul_zero, timeline, List.append_nil]
    exact hr
  | succ n ih =>
    have hnext := ih.four ih.aligned.steady
    rwa [List.append_assoc, ← timeline_add, ← Function.iterate_add_apply, Nat.add_comm 4,
      ← Nat.mul_succ] at hnext

end Timer

end Handheld
