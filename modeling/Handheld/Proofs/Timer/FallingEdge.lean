import Handheld.Proofs.Timer.Register

/-!
Falling edges. Whatever is done to a timer, the signal that it remembers is the watched divider
bit gated by the enable bit, so a cycle compares the same two values as a write does. The counter
counts exactly the falls of that signal. Apart from them it changes only by a reload that is due
and by writes to the counter and the modulo.
-/
namespace Handheld.Timer

/-- What the operations lead to from a cleared timer. A reset is the same from everywhere. -/
inductive Reachable : Timer → Prop
  | cleared : Reachable .cleared
  | reset : Reachable .postBoot
  | step {t : Timer} (h : Reachable t) (n : Nat) : Reachable (t.step n).1
  | write {t : Timer} (h : Reachable t) (addr : UInt16) (v : UInt8) : Reachable (t.write addr v).1
  | clearDivider {t : Timer} (h : Reachable t) : Reachable t.clearDivider.1

/-- The remembered signal is that of the registers. -/
def Settled (t : Timer) : Prop := t.lastSignal = t.signal

theorem settled_edge (t : Timer) (before : Bool) : (t.edge before).Settled := by
  rw [edge_eq]
  rfl

theorem settled_cycle (t : Timer) : t.cycle.Settled := by
  rw [cycle_eq]
  rfl

theorem settled_clearDivider (t : Timer) : t.clearDivider.1.Settled := by
  rw [clearDivider_eq]
  exact settled_edge _ _

variable {t : Timer}

theorem Settled.cycles (h : t.Settled) (n : Nat) : (cycle^[n] t).Settled := by
  cases n with
  | zero => exact h
  | succ n =>
    rw [Function.iterate_succ_apply']
    exact settled_cycle _

theorem Settled.writeCounter (h : t.Settled) (v : UInt8) : (t.writeCounter v).Settled := by
  unfold Timer.writeCounter
  split
  · exact h
  · exact h
  · exact h
  · exact h

theorem Settled.writeModulo (h : t.Settled) (v : UInt8) : (t.writeModulo v).Settled := by
  unfold Timer.writeModulo
  dsimp only
  split
  · exact h
  · exact h
  · exact h

theorem Settled.write (h : t.Settled) (addr : UInt16) (v : UInt8) :
    (t.write addr v).1.Settled := by
  unfold Timer.write
  split
  · exact settled_clearDivider t
  · exact h.writeCounter v
  · exact h.writeModulo v
  · exact settled_edge _ _
  · exact h

theorem Reachable.settled (h : Reachable t) : t.Settled := by
  induction h with
  | cleared => rfl
  | reset => rfl
  | @step t h n ih =>
    rw [step_eq]
    exact ih.cycles n
  | write h addr v ih => exact ih.write addr v
  | @clearDivider t h ih => exact settled_clearDivider t

end Handheld.Timer
