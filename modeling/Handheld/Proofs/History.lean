import Handheld.Proofs.Transition

/-!
Histories of a machine. A moment records what the processor did, the interrupt that it took
and the state that followed. Between steps anything may be changed from outside but the
switches of interrupts: the master enable and the countdown to it.
-/
namespace Handheld

/-- A moment without an event is a change from outside. -/
structure Moment (V A : Type) where
  event : Option Event
  taken : Option Interrupt
  state : Core V A

namespace Moment

variable {V A : Type}

/-- The instruction that was completed. -/
def ran? (m : Moment V A) : Option Instruction :=
  match m.event with
  | some (.ran i) => some i
  | _ => none

/-- The instructions that were completed, in order. -/
def instructions (moments : List (Moment V A)) : List Instruction := moments.filterMap ran?

/-- The state after some moments from a state. -/
def final (s : Core V A) : List (Moment V A) → Core V A
  | [] => s
  | m :: rest => final m.state rest

theorem instructions_cons (m : Moment V A) (rest : List (Moment V A)) :
    instructions (m :: rest) = m.ran?.toList ++ instructions rest := by
  rw [instructions, List.filterMap_cons]
  cases m.ran? <;> rfl

theorem instructions_cons_of_none {m : Moment V A} (h : m.ran? = none)
    (rest : List (Moment V A)) : instructions (m :: rest) = instructions rest := by
  rw [instructions_cons, h]
  rfl

theorem instructions_cons_of_some {m : Moment V A} {i : Instruction} (h : m.ran? = some i)
    (rest : List (Moment V A)) : instructions (m :: rest) = i :: instructions rest := by
  rw [instructions_cons, h]
  rfl

theorem final_append (s : Core V A) (first rest : List (Moment V A)) :
    final s (first ++ rest) = final (final s first) rest := by
  induction first generalizing s with
  | nil => rfl
  | cons m tail ih => exact ih m.state

/-- The first moment that completes an instruction. -/
def first? (moments : List (Moment V A)) : Option (Moment V A) :=
  moments.find? fun m => m.ran?.isSome

theorem instructions_of_first?_eq_none {moments : List (Moment V A)} (h : first? moments = none) :
    instructions moments = [] := by
  rw [instructions, List.filterMap_eq_nil_iff]
  intro m hm
  simpa using List.find?_eq_none.mp h m hm

theorem first?_cons_of_none {m : Moment V A} (h : m.ran? = none) (rest : List (Moment V A)) :
    first? (m :: rest) = first? rest := by
  rw [first?, List.find?_cons_of_neg (by simp [h])]
  rfl

theorem first?_cons_of_some {m : Moment V A} {i : Instruction} (h : m.ran? = some i)
    (rest : List (Moment V A)) : first? (m :: rest) = some m := by
  rw [first?, List.find?_cons_of_pos (by simp [h])]

end Moment

variable {V A : Type} [VideoUnit V] [AudioUnit A]

/-- What a step from a state is recorded as. -/
def Core.moment (s : Core V A) : Moment V A := ⟨some s.event, s.taken?, (Exec.step s).2⟩

/-- The moments that may follow a state. -/
inductive History : Core V A → List (Moment V A) → Prop
  | nil (s : Core V A) : History s []
  | step (s : Core V A) {rest : List (Moment V A)} (h : History (Exec.step s).2 rest) :
      History s (s.moment :: rest)
  | outside (s s' : Core V A) {rest : List (Moment V A)} (hime : s'.cpu.ime = s.cpu.ime)
      (hdelay : s'.cpu.enableDelay = s.cpu.enableDelay) (h : History s' rest) :
      History s (⟨none, none, s'⟩ :: rest)

/-- The moments of some steps in a row. -/
def Core.record : Nat → Core V A → List (Moment V A)
  | 0, _ => []
  | n + 1, s => s.moment :: record n (Exec.step s).2

namespace History

open Moment

theorem of_record (n : Nat) (s : Core V A) : History s (s.record n) := by
  induction n generalizing s with
  | zero => exact .nil s
  | succ n ih => exact .step s (ih _)

/-- What follows some moments is a history of the state after them. -/
theorem of_append {s : Core V A} {first rest : List (Moment V A)}
    (h : History s (first ++ rest)) : History s first ∧ History (final s first) rest := by
  induction first generalizing s with
  | nil => exact ⟨.nil s, h⟩
  | cons m tail ih =>
    cases h with
    | step _ h =>
      obtain ⟨htail, hrest⟩ := ih h
      exact ⟨.step s htail, hrest⟩
    | outside _ s' hime hdelay h =>
      obtain ⟨htail, hrest⟩ := ih h
      exact ⟨.outside s s' hime hdelay htail, hrest⟩

end History

end Handheld
