import Handheld.Timer
import Mathlib.Logic.Function.Iterate

/-!
Single cycles of the timer, and what can happen in one. A watched divider bit falls only where
the divider reaches a multiple of sixteen, so a machine cycle that begins on a multiple of four
has at most its last cycle for a fall.
-/
namespace Handheld

/-- An overflow state after one cycle without a new overflow. -/
def Overflow.next : Overflow → Overflow
  | idle => idle
  | reloading => idle
  | pending _ 0 => reloading
  | pending value (delay + 1) => pending value delay

namespace Timer

def cycle (t : Timer) : Timer := t.tick.1

/-- The timer at the start of each of `n` cycles. -/
def timeline : Nat → Timer → List Timer
  | 0, _ => []
  | n + 1, t => t :: timeline n t.cycle

/-- The cycle that begins here copies a modulo to the counter. -/
def reloads (t : Timer) : Bool :=
  match t.overflow with
  | .pending _ 0 => true
  | _ => false

/-- The counter once a reload that is due has been made. -/
def reloaded (t : Timer) : UInt8 :=
  match t.overflow with
  | .pending value 0 => value
  | _ => t.counter

/-- The watched bit falls in the cycle that begins here. -/
def falls (t : Timer) : Bool := t.lastSignal && !signalOf (t.divider + 1) t.control

/-- The counter overflows in the cycle that begins here. -/
def overflows (t : Timer) : Bool := t.falls && t.reloaded == 0xFF

/-- What a fall from `before` does to a timer that has just changed. -/
theorem edge_eq (t : Timer) (before : Bool) :
    t.edge before =
      { t with
        counter := if before && !t.signal then t.counter + 1 else t.counter
        lastSignal := t.signal
        oldModulo := none
        overflow :=
          if before && !t.signal && t.counter == 0xFF then
            .pending (t.oldModulo.getD t.modulo) reloadDelay
          else t.overflow } := by
  unfold edge increment
  dsimp only
  cases before && !t.signal with
  | false => rfl
  | true =>
    by_cases hfull : t.counter = 0xFF
    · simp [hfull]
    · simp [hfull]

theorem tickReload_eq (t : Timer) :
    t.tickReload =
      ({ t with counter := t.reloaded, overflow := t.overflow.next }, t.reloads) := by
  obtain ⟨divider, counter, modulo, control, lastSignal, oldModulo, overflow⟩ := t
  match overflow with
  | .idle | .reloading | .pending _ 0 | .pending _ (_ + 1) => rfl

theorem cycle_eq (t : Timer) :
    t.cycle =
      { t with
        divider := t.divider + 1
        counter := if t.falls then t.reloaded + 1 else t.reloaded
        lastSignal := signalOf (t.divider + 1) t.control
        oldModulo := none
        overflow :=
          if t.overflows then .pending (t.oldModulo.getD t.modulo) reloadDelay
          else t.overflow.next } := by
  unfold cycle tick
  rw [tickReload_eq]
  exact edge_eq _ _

theorem raised_tick (t : Timer) : t.tick.2 = t.reloads := by
  unfold tick
  rw [tickReload_eq]

theorem timeline_add (m n : Nat) (t : Timer) :
    timeline (m + n) t = timeline m t ++ timeline n (cycle^[m] t) := by
  induction m generalizing t with
  | zero => rw [Nat.zero_add]; rfl
  | succ m ih =>
    rw [Nat.succ_add, timeline, ih, Function.iterate_succ_apply]
    rfl

theorem mem_timeline {n : Nat} {s t : Timer} : s ∈ timeline n t ↔ ∃ k < n, s = cycle^[k] t := by
  induction n generalizing t with
  | zero => simp [timeline]
  | succ n ih =>
    rw [timeline, List.mem_cons, ih]
    constructor
    · rintro (rfl | ⟨k, hk, rfl⟩)
      · exact ⟨0, Nat.succ_pos n, rfl⟩
      · exact ⟨k + 1, Nat.succ_lt_succ hk, (Function.iterate_succ_apply _ _ _).symm⟩
    · rintro ⟨k, hk, rfl⟩
      cases k with
      | zero => exact .inl rfl
      | succ k => exact .inr ⟨k, Nat.lt_of_succ_lt_succ hk, Function.iterate_succ_apply _ _ _⟩

/-- Cycles raise the interrupt where one of them reloads. -/
theorem ticks_eq (n : Nat) (t : Timer) (raised : Bool) :
    ticks n t raised = (cycle^[n] t, raised || (timeline n t).any reloads) := by
  induction n generalizing t raised with
  | zero => rw [timeline, List.any_nil, Bool.or_false]; rfl
  | succ n ih =>
    have hsplit : ticks (n + 1) t raised = ticks n t.cycle (raised || t.tick.2) := rfl
    rw [hsplit, ih, raised_tick, Function.iterate_succ_apply, timeline, List.any_cons,
      Bool.or_assoc]

theorem step_eq (t : Timer) (n : Nat) :
    t.step n = (cycle^[n] t, requests ((timeline n t).any reloads)) := by
  rw [step, ticks_eq, Bool.false_or]

theorem reloads_iff (t : Timer) : t.reloads = true ↔ ∃ value, t.overflow = .pending value 0 := by
  unfold reloads
  match t.overflow with
  | .idle | .reloading | .pending _ 0 | .pending _ (_ + 1) => simp

theorem reloaded_of_pending {t : Timer} {value : UInt8} (h : t.overflow = .pending value 0) :
    t.reloaded = value := by
  simp only [reloaded, h]

theorem reloaded_of_not_reloads {t : Timer} (h : t.reloads = false) : t.reloaded = t.counter := by
  unfold reloads at h
  unfold reloaded
  split
  · next hdue => simp [hdue] at h
  · rfl

theorem watchedBit_eq (control : UInt8) :
    watchedBit control = 3 ∨ watchedBit control = 5 ∨ watchedBit control = 7 ∨
      watchedBit control = 9 := by
  unfold watchedBit
  split <;> simp

/-- The three lowest bits of the divider are not watched. -/
theorem signalOf_of_div_eq {d e : UInt16} (h : d.toNat / 8 = e.toNat / 8) (control : UInt8) :
    signalOf d control = signalOf e control := by
  have hbit : d.toNat.testBit (watchedBit control) = e.toNat.testBit (watchedBit control) := by
    simp only [Nat.testBit_eq_decide_div_mod_eq]
    congr 2
    obtain hbit | hbit | hbit | hbit := watchedBit_eq control <;> rw [hbit] <;> omega
  rw [signalOf, signalOf, hbit]

theorem signalOf_add_of_lt {d : UInt16} (hd : d.toNat % 4 = 0) {k : Nat} (hk : k < 4)
    (control : UInt8) : signalOf (d + UInt16.ofNat k) control = signalOf d control := by
  apply signalOf_of_div_eq
  have hlt := d.toNat_lt
  rw [UInt16.toNat_add, UInt16.toNat_ofNat']
  omega

theorem signalOf_add_four {d : UInt16} (hd : d.toNat % 16 = 0) (control : UInt8) :
    signalOf (d + 4) control = signalOf d control := by
  apply signalOf_of_div_eq
  have hlt := d.toNat_lt
  have hfour : (4 : UInt16).toNat = 4 := rfl
  rw [UInt16.toNat_add, hfour]
  omega

/-- A watched bit falls where the divider reaches a multiple of sixteen. -/
theorem divider_mod_of_fall {d : UInt16} {control : UInt8} (hd : d.toNat % 4 = 0)
    (hbefore : signalOf d control = true) (hafter : signalOf (d + 4) control = false) :
    (d + 4).toNat % 16 = 0 := by
  have hlt := d.toNat_lt
  have hfour : (4 : UInt16).toNat = 4 := rfl
  rw [signalOf, Bool.and_eq_true] at hbefore
  rw [signalOf, hbefore.1, Bool.true_and] at hafter
  have hset := hbefore.2
  rw [Nat.testBit_eq_decide_div_mod_eq, decide_eq_true_iff] at hset
  rw [Nat.testBit_eq_decide_div_mod_eq, decide_eq_false_iff_not] at hafter
  rw [UInt16.toNat_add, hfour] at hafter ⊢
  obtain hbit | hbit | hbit | hbit := watchedBit_eq control <;> rw [hbit] at hset hafter <;> omega

end Timer

end Handheld
