import Handheld.Proofs.Video.Position

/-!
The status signal between two samples. The signal is the OR of the enabled sources at the position
of the beam, and it can change only where a line begins, where its scan ends and where its transfer
ends. These places are further apart than two samples, so at most one of them lies between two
samples, and a signal that is low at the first and high at the second has risen exactly once in
between. The samples therefore tell what a look at every cycle would tell.
-/
namespace Handheld.Lcd

/-- The display with its beam where it is after `time` cycles from the start of a frame. -/
def beamAt (v : Lcd) (time : Nat) : Lcd :=
  { v with line := UInt8.ofNat (time / 456 % 154), lineClock := time % 456 }

/-- The OR of the enabled status sources with the beam there. -/
def signalAt (v : Lcd) (time : Nat) : Bool := (v.beamAt time).statusSignal

/-- The display with its beam there and its status signal sampled. -/
def sampledAt (v : Lcd) (time : Nat) : Lcd :=
  { v.beamAt time with statusLine := v.signalAt time }

section Sampled

variable {v : Lcd} {time : Nat}

theorem At.beamAt_eq (h : v.At time) : v.beamAt time = v := by
  have hline : UInt8.ofNat (time / 456 % 154) = v.line := by
    rw [← h.line_eq, UInt8.ofNat_toNat]
  have hclock : time % 456 = v.lineClock := by
    have hlt := h.lineClock_lt
    have hplace := h.place_eq
    unfold place frameCycles lineCycles at hplace
    unfold lineCycles at hlt
    omega
  rw [beamAt, hline, hclock]

theorem beamAt_moveBeam (v : Lcd) (n time : Nat) :
    (v.moveBeam n).1.beamAt time = v.beamAt time := by
  unfold moveBeam
  dsimp only
  split <;> rfl

/-- A piece of time leads to the sample at its end. -/
theorem At.advance_eq (h : v.At time) {n : Nat} (hn : n ≤ lineCycles) :
    (v.advance n).1 = v.sampledAt (time + n) := by
  have hmoved : (v.moveBeam n).1 = v.beamAt (time + n) := by
    rw [← (h.moveBeam hn).beamAt_eq, beamAt_moveBeam]
  have hsampled := congrArg (fun w : Lcd => w.sampleStatus.1) hmoved
  exact hsampled

/-- The display is on, its beam is where it is after `time` cycles and its status signal has been
sampled there. -/
structure Sampled (time : Nat) (v : Lcd) : Prop where
  at_time : v.At time
  statusLine_eq : v.statusLine = v.statusSignal

theorem Sampled.statusLine_eq_signalAt (h : v.Sampled time) : v.statusLine = v.signalAt time := by
  rw [signalAt, h.at_time.beamAt_eq]
  exact h.statusLine_eq

theorem Sampled.sampledAt_eq (h : v.Sampled time) : v.sampledAt time = v := by
  rw [sampledAt, ← h.statusLine_eq_signalAt, h.at_time.beamAt_eq]

theorem Sampled.advance (h : v.Sampled time) {n : Nat} (hn : n ≤ lineCycles) :
    (v.advance n).1.Sampled (time + n) where
  at_time := h.at_time.advance hn
  statusLine_eq := rfl

/-- Pieces of time lead to the sample at their end. -/
theorem Sampled.pass_eq (h : v.Sampled time) {ns : List Nat} (hns : ∀ n ∈ ns, n ≤ lineCycles) :
    pass ns v = v.sampledAt (time + ns.sum) := by
  induction ns generalizing v time with
  | nil => exact h.sampledAt_eq.symm
  | cons n ns ih =>
    have hn := hns n List.mem_cons_self
    have hrest := ih (h.advance hn) fun m hm => hns m (List.mem_cons_of_mem n hm)
    rw [h.at_time.advance_eq hn] at hrest
    rw [pass, h.at_time.advance_eq hn, hrest, List.sum_cons, Nat.add_assoc]
    rfl

/-- Successive steps lead to the sample at their end. -/
theorem Sampled.steps_fst_eq (h : v.Sampled time) (ns : List Nat) :
    (steps ns v).1 = v.sampledAt (time + ns.sum) := by
  rw [steps_eq h.at_time.enabled, h.pass_eq fun n => le_of_mem_flatMap_pieces, sum_flatMap_pieces]

theorem Sampled.steps (h : v.Sampled time) (ns : List Nat) :
    (Lcd.steps ns v).1.Sampled (time + ns.sum) := by
  constructor
  · rw [steps_eq h.at_time.enabled]
    exact h.at_time.pass_pieces ns
  · rw [h.steps_fst_eq]
    rfl

end Sampled

end Handheld.Lcd
