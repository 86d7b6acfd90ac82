import Handheld.Bus
import Handheld.Proofs.Timer.Register

/-!
The timer on the bus. Cycles pass in charges of whole machine cycles, and a byte that is stored
is written before the cycles of its access. So every access begins between machine cycles, and
what it finds there is told by the last cycle before it.
-/
namespace Handheld

namespace Bus

variable {V A : Type} [VideoUnit V] [AudioUnit A]

/-- What cycles are charged for. -/
inductive Charge
  | load (addr : UInt16)
  | store (addr : UInt16) (v : UInt8)
  | delay (machineCycles : Nat)
  deriving DecidableEq

def Charge.cycles : Charge → Nat
  | load _ => accessCycles
  | store _ _ => accessCycles
  | delay machineCycles => accessCycles * machineCycles

/-- The bus when the cycles of a charge begin. -/
def begun (b : Bus V A) : Charge → Bus V A
  | .load _ => b
  | .store addr v => b.write addr v
  | .delay _ => b

def charge (b : Bus V A) (c : Charge) : Bus V A := (b.begun c).advance c.cycles

/-- The timer at the start of each cycle of a charge. -/
def timers (b : Bus V A) (c : Charge) : List Timer :=
  Timer.timeline c.cycles (b.begun c).timer

theorem load_eq_charge (b : Bus V A) (addr : UInt16) : (b.load addr).2 = b.charge (.load addr) :=
  rfl

theorem loadWord_eq_charge (b : Bus V A) (addr : UInt16) :
    (b.loadWord addr).2 = (b.charge (.load addr)).charge (.load (addr + 1)) := by
  simp only [loadWord, load_eq_charge]

theorem store_eq_charge (b : Bus V A) (addr : UInt16) (v : UInt8) :
    b.store addr v = b.charge (.store addr v) := rfl

theorem storeWord_eq_charge (b : Bus V A) (addr v : UInt16) :
    b.storeWord addr v =
      (b.charge (.store addr (Word.low v))).charge (.store (addr + 1) (Word.high v)) := rfl

theorem advance_eq_charge (b : Bus V A) (machineCycles : Nat) :
    b.advance (accessCycles * machineCycles) = b.charge (.delay machineCycles) := rfl

/-- The buses of the runs from power-on in which cycles pass in charges only, with the timer at
the start of each cycle that has passed. What takes no cycles leaves the timer alone, if it is
not the write of a charge. -/
inductive Timed : List Timer → Bus V A → Prop
  | reset (b : Bus V A) : Timed [] b.reset
  | charge {cycles : List Timer} {b : Bus V A} (h : Timed cycles b) (c : Charge) :
      Timed (cycles ++ b.timers c) (b.charge c)
  | aside {cycles : List Timer} {b b' : Bus V A} (h : Timed cycles b)
      (htimer : b'.timer = b.timer) : Timed cycles b'

theorem timer_advance (b : Bus V A) (n : Nat) : (b.advance n).timer = Timer.cycle^[n] b.timer :=
  congrArg Prod.fst (b.timer.step_eq n)

theorem requested_advance (b : Bus V A) (n : Nat) :
    (b.advance n).requested =
      b.requested ||| Timer.requests ((Timer.timeline n b.timer).any Timer.reloads) |||
        (VideoUnit.step b.video n).2 := by
  have hraised : (b.timer.step n).2 =
      Timer.requests ((Timer.timeline n b.timer).any Timer.reloads) :=
    congrArg Prod.snd (b.timer.step_eq n)
  rw [← hraised]
  rfl

theorem timer_write_of_ne {addr : UInt16} (h : Region.of addr ≠ .timer) (t : Timer) (v : UInt8) :
    t.write addr v = (t, 0) := by
  unfold Timer.write
  split
  · exact absurd (by decide) h
  · exact absurd (by decide) h
  · exact absurd (by decide) h
  · exact absurd (by decide) h
  · rfl

theorem timer_write (b : Bus V A) (addr : UInt16) (v : UInt8) :
    (b.write addr v).timer = (b.timer.write addr v).1 := by
  by_cases htimer : Region.of addr = .timer
  · simp only [write, htimer]
    rfl
  · rw [timer_write_of_ne htimer]
    unfold write
    split
    · split <;> rfl
    · split <;> rfl
    · rfl
    · rfl
    · next hregion => exact absurd hregion htimer
    · rfl
    · split <;> rfl
    · exact writeVideo_keeps Bus.timer (fun _ _ _ => rfl) b addr v
    · rfl
    · rfl

theorem steady_begun {b : Bus V A} (h : b.timer.Aligned) (c : Charge) :
    (b.begun c).timer.Steady := by
  cases c with
  | load addr => exact h.steady
  | store addr v =>
    rw [begun, timer_write]
    exact h.steady_write addr v
  | delay machineCycles => exact h.steady

variable {cycles : List Timer} {b : Bus V A}

theorem Timed.recorded (h : Timed cycles b) : Timer.Recorded cycles b.timer := by
  induction h with
  | reset b => exact Timer.recorded_postBoot
  | @charge cycles b h c ih =>
    rw [timers, Bus.charge, timer_advance]
    cases c with
    | load addr => exact ih.four ih.aligned.steady
    | store addr v => exact ih.four (steady_begun ih.aligned (.store addr v))
    | delay machineCycles => exact ih.machineCycles machineCycles
  | @aside cycles b b' h htimer ih =>
    rw [htimer]
    exact ih

theorem or_or_and_self (a b mask : UInt8) : (a ||| mask ||| b) &&& mask = mask := by
  apply UInt8.toBitVec_inj.mp
  ext i hi
  simp only [UInt8.toBitVec_and, UInt8.toBitVec_or, BitVec.getElem_and, BitVec.getElem_or]
  cases mask.toBitVec[i] <;> simp

/-- A charge in which a reload is made leaves a request for the interrupt. -/
theorem requested_charge {c : Charge} {s : Timer} (hs : s ∈ b.timers c)
    (hreloads : s.reloads = true) :
    (b.charge c).requested &&& Interrupt.timer.mask = Interrupt.timer.mask := by
  have hany : (Timer.timeline c.cycles (b.begun c).timer).any Timer.reloads = true :=
    List.any_eq_true.mpr ⟨s, hs, hreloads⟩
  rw [charge, requested_advance, hany]
  exact or_or_and_self _ _ _

/-- The last cycle of an access whose write makes the counter overflow is the reload. -/
theorem reloads_last_of_overflowsOnWrite (h : b.timer.Aligned) {addr : UInt16} {v : UInt8}
    (hoverflows : b.timer.overflowsOnWrite addr v = true) :
    ∃ s, (b.timers (.store addr v)).getLast? = some s ∧ s.reloads = true := by
  have hsteady := steady_begun h (.store addr v)
  have hpending : (b.begun (.store addr v)).timer.overflow =
      .pending b.timer.modulo Timer.reloadDelay := by
    rw [begun, timer_write]
    exact h.overflow_write hoverflows
  have hdue := ((hsteady.quiet (Nat.le_refl 3)).due_iff _).mpr hpending
  exact ⟨_, Timer.getLast?_timeline_four _, (Timer.reloads_iff _).mpr ⟨_, hdue⟩⟩

end Bus

end Handheld
