import Handheld.Breakpoints
import Mathlib.Algebra.Ring.Nat

/-!
Breakpoints as their operations build them. The flag beside the entries tells whether any
entry is enabled, so that it never hides an enabled one.
-/
namespace Handheld.Breakpoints

/-- What the operations lead to from no breakpoints. -/
inductive Reachable : Breakpoints → Prop
  | empty : Reachable .empty
  | add {bs : Breakpoints} (h : Reachable bs) (addr : UInt16) : Reachable (bs.add addr).1
  | remove {bs : Breakpoints} (h : Reachable bs) (addr : UInt16) : Reachable (bs.remove addr).1
  | setEnabled {bs : Breakpoints} (h : Reachable bs) (addr : UInt16) (enabled : Bool) :
      Reachable (bs.setEnabled addr enabled).1
  | toggle {bs : Breakpoints} (h : Reachable bs) (addr : UInt16) : Reachable (bs.toggle addr).1

theorem Reachable.anyEnabled_eq {bs : Breakpoints} (h : Reachable bs) :
    bs.anyEnabled = bs.entries.any (·.enabled) := by
  induction h with
  | empty => rfl
  | @add bs h addr ih =>
    unfold Breakpoints.add
    split
    · rfl
    · rfl
  | @remove bs h addr ih =>
    unfold Breakpoints.remove
    split
    · rfl
    · exact ih
  | @setEnabled bs h addr enabled ih =>
    unfold Breakpoints.setEnabled
    split
    · rfl
    · exact ih
  | @toggle bs h addr ih =>
    unfold Breakpoints.toggle
    split
    · rfl
    · exact ih

/-- Whether there is an enabled entry at an address. -/
def isEnabledAt (bs : Breakpoints) (addr : UInt16) : Bool :=
  bs.entries.any fun b => b.enabled && b.addr == addr

theorem Reachable.isHit_eq {bs : Breakpoints} (h : Reachable bs) (pc : UInt16) :
    bs.isHit pc = bs.isEnabledAt pc := by
  rw [isHit, h.anyEnabled_eq, isEnabledAt]
  by_cases hat : bs.entries.any (fun b => b.enabled && b.addr == pc) = true
  · obtain ⟨b, hb, henabled⟩ := List.any_eq_true.mp hat
    have hany : bs.entries.any (·.enabled) = true := by
      refine List.any_eq_true.mpr ⟨b, hb, ?_⟩
      simp only [Bool.and_eq_true] at henabled
      exact henabled.1
    rw [hany, Bool.true_and]
  · rw [Bool.not_eq_true] at hat
    rw [hat, Bool.and_false]

theorem isHit_empty (pc : UInt16) : empty.isHit pc = false := rfl

end Handheld.Breakpoints
