import Handheld.Proofs.Requests
import Handheld.Proofs.Video.Beam

/-!
The position of the beam in closed form. While the display is on, the cycles that have passed tell
where the beam is and whether it has come to the first line of the vertical blank, however they
were divided into steps. A step takes its cycles in pieces that are shorter than a line, so that in
one of them the beam comes to that line at most once and does not pass it unseen.
-/
namespace Handheld.Lcd

/-- The displays that resets, steps and writes to the registers lead to. -/
inductive Reachable : Lcd → Prop
  | reset (v : Lcd) : Reachable (VideoUnit.reset v)
  | step {v : Lcd} (h : Reachable v) (cycles : Nat) : Reachable (v.step cycles).1
  | write {v : Lcd} (h : Reachable v) (addr : UInt16) (value : UInt8) :
    Reachable (v.write addr value)

theorem reachable_postBoot : Reachable postBoot := .reset postBoot

/-- The beam is within the frame, and at the start of it while the display is off. -/
structure Bounded (v : Lcd) : Prop where
  line_lt : v.line.toNat < 154
  lineClock_lt : v.lineClock < lineCycles
  place_of_off : v.enabled = false → v.place = 0

/-- The display after successive steps, and what they request together. -/
def steps : List Nat → Lcd → Lcd × Requests
  | [], v => (v, 0)
  | n :: rest, v =>
    ((steps rest (v.step n).1).1, (v.step n).2 ||| (steps rest (v.step n).1).2)

/-- The cycles before the first line of the vertical blank. -/
def blankStart : Nat := lineCycles * 144

/-- The vertical blank begins in the last of some cycles. -/
def BlankBegins (time : Nat) : Prop := time % frameCycles = blankStart

/-- Something happens in one of the `n` cycles after `time`. -/
def Within (P : Nat → Prop) (time n : Nat) : Prop := ∃ t, time < t ∧ t ≤ time + n ∧ P t

theorem within_add (P : Nat → Prop) (time m n : Nat) :
    Within P time (m + n) ↔ Within P time m ∨ Within P (time + m) n := by
  constructor
  · rintro ⟨t, hafter, hbefore, ht⟩
    by_cases hfirst : t ≤ time + m
    · exact Or.inl ⟨t, hafter, hfirst, ht⟩
    · exact Or.inr ⟨t, by omega, by omega, ht⟩
  · rintro (⟨t, hafter, hbefore, ht⟩ | ⟨t, hafter, hbefore, ht⟩)
    · exact ⟨t, hafter, by omega, ht⟩
    · exact ⟨t, by omega, by omega, ht⟩

theorem not_within_zero (P : Nat → Prop) (time : Nat) : ¬Within P time 0 := by
  rintro ⟨t, hafter, hbefore, -⟩
  omega

/-- What a single move tells about its cycles, a walk tells about all of them. The moves start from
displays of which something is known, and which goes on being so as the cycles pass. -/
theorem exists_mem_walk_iff {I : Nat → Lcd → Prop} {Q : Move → Prop} {P : Nat → Prop} {bound : Nat}
    (hadvance : ∀ {time v n}, I time v → n ≤ bound → I (time + n) (v.advance n).1)
    (hmove : ∀ {time v n}, I time v → n ≤ bound → (Q ⟨v, (v.advance n).1⟩ ↔ Within P time n))
    {time : Nat} {v : Lcd} (h : I time v) {ns : List Nat} (hns : ∀ n ∈ ns, n ≤ bound) :
    (∃ m ∈ walk ns v, Q m) ↔ Within P time ns.sum := by
  induction ns generalizing v time with
  | nil =>
    rw [List.sum_nil]
    simp [walk, not_within_zero]
  | cons n ns ih =>
    have hn := hns n List.mem_cons_self
    have hrest := ih (hadvance h hn) fun m hm => hns m (List.mem_cons_of_mem n hm)
    rw [List.sum_cons, within_add, ← hrest, ← hmove h hn, walk]
    simp only [List.exists_mem_cons_iff]

section Blank

variable {v : Lcd} {time : Nat}

/-- In a piece of time the beam comes to line 144 exactly if the vertical blank begins in it. -/
theorem At.reachesBlank_advance (h : v.At time) {n : Nat} (hn : n ≤ lineCycles) :
    Move.reachesBlank ⟨v, (v.advance n).1⟩ = true ↔ Within BlankBegins time n := by
  have hbefore := h.line_eq
  have hafter := (h.advance hn).line_eq
  have hvisible : visibleLines.toNat = 144 := rfl
  rw [reachesBlank_iff]
  change v.line ≠ visibleLines ∧ (v.advance n).1.line = visibleLines ↔ _
  rw [ne_eq, ← UInt8.toNat_inj, ← UInt8.toNat_inj, hbefore, hafter, hvisible]
  unfold Within BlankBegins frameCycles blankStart
  unfold lineCycles at hn ⊢
  constructor
  · rintro ⟨hother, hblank⟩
    exact ⟨456 * ((time + n) / 456), by omega, by omega, by omega⟩
  · rintro ⟨t, ht, htn, hbegins⟩
    constructor
    · omega
    · omega

theorem At.blank_walk (h : v.At time) {ns : List Nat} (hns : ∀ n ∈ ns, n ≤ lineCycles) :
    (∃ m ∈ walk ns v, m.reachesBlank = true) ↔ Within BlankBegins time ns.sum :=
  exists_mem_walk_iff (fun hat hn => hat.advance hn) (fun hat hn => hat.reachesBlank_advance hn) h
    hns

end Blank

theorem enabled_advance (v : Lcd) (n : Nat) : (v.advance n).1.enabled = v.enabled :=
  enabled_moveBeam v n

theorem enabled_pass (ns : List Nat) (v : Lcd) : (pass ns v).enabled = v.enabled := by
  induction ns generalizing v with
  | nil => rfl
  | cons n ns ih => exact (ih _).trans (enabled_advance v n)

/-- While the display is off no step changes anything. -/
theorem step_of_off {v : Lcd} (hoff : v.enabled = false) (n : Nat) : v.step n = (v, 0) := by
  rw [step_eq, moves, hoff, if_neg Bool.false_ne_true, if_neg Bool.false_ne_true]
  rfl

/-- Successive steps are the pieces of all of them. -/
theorem steps_eq {v : Lcd} (hon : v.enabled = true) (ns : List Nat) :
    steps ns v = (pass (ns.flatMap pieces) v, requestsOf (walk (ns.flatMap pieces) v)) := by
  induction ns generalizing v with
  | nil => rfl
  | cons n ns ih =>
    have hafter : (pass (pieces n) v).enabled = true := (enabled_pass _ v).trans hon
    rw [steps, step_eq, moves, if_pos hon, if_pos hon, ih hafter, List.flatMap_cons, pass_append,
      walk_append, requestsOf_append]

theorem sum_flatMap_pieces (ns : List Nat) : (ns.flatMap pieces).sum = ns.sum := by
  induction ns with
  | nil => rfl
  | cons n ns ih => rw [List.flatMap_cons, List.sum_append, sum_pieces, ih, List.sum_cons]

theorem le_samplePeriod_of_mem_flatMap_pieces {ns : List Nat} {n : Nat}
    (h : n ∈ ns.flatMap pieces) : n ≤ samplePeriod := by
  obtain ⟨cycles, -, hn⟩ := List.mem_flatMap.mp h
  exact le_samplePeriod_of_mem_pieces hn

theorem le_of_mem_flatMap_pieces {ns : List Nat} {n : Nat} (h : n ∈ ns.flatMap pieces) :
    n ≤ lineCycles :=
  Nat.le_trans (le_samplePeriod_of_mem_flatMap_pieces h) samplePeriod_le_lineCycles

theorem At.pass_pieces {v : Lcd} {time : Nat} (h : v.At time) (ns : List Nat) :
    (Lcd.pass (ns.flatMap pieces) v).At (time + ns.sum) := by
  rw [← sum_flatMap_pieces ns]
  exact h.pass fun n => le_of_mem_flatMap_pieces

theorem At.blank_walk_pieces {v : Lcd} {time : Nat} (h : v.At time) (ns : List Nat) :
    (∃ m ∈ walk (ns.flatMap pieces) v, m.reachesBlank = true) ↔ Within BlankBegins time ns.sum := by
  rw [h.blank_walk fun n => le_of_mem_flatMap_pieces, sum_flatMap_pieces]

theorem isIn_vblank_requestsOf (ms : List Move) :
    Interrupt.vblank.isIn (requestsOf ms) = true ↔ ∃ m ∈ ms, m.reachesBlank = true := by
  simp [isIn_requestsOf, isIn_requests]

theorem Bounded.at_place {v : Lcd} (h : v.Bounded) (hon : v.enabled = true) : v.At v.place := by
  refine ⟨hon, h.line_lt, h.lineClock_lt, ?_⟩
  have hline := h.line_lt
  have hclock := h.lineClock_lt
  unfold place frameCycles
  unfold lineCycles at hclock ⊢
  omega

theorem At.bounded {v : Lcd} {time : Nat} (h : v.At time) : v.Bounded := by
  refine ⟨h.line_lt, h.lineClock_lt, fun hoff => ?_⟩
  simp [h.enabled] at hoff

theorem Bounded.step {v : Lcd} (h : v.Bounded) (cycles : Nat) : (v.step cycles).1.Bounded := by
  cases hon : v.enabled with
  | false =>
    rw [step_of_off hon]
    exact h
  | true => exact ((h.at_place hon).step cycles).bounded

theorem Bounded.write {v : Lcd} (h : v.Bounded) (addr : UInt16) (value : UInt8) :
    (v.write addr value).Bounded := by
  have hkept (w : Lcd) (hline : w.line = v.line) (hclock : w.lineClock = v.lineClock)
      (hplace : w.enabled = false → v.enabled = false) : w.Bounded := by
    refine ⟨hline ▸ h.line_lt, hclock ▸ h.lineClock_lt, fun hoff => ?_⟩
    rw [place, hline, hclock]
    exact h.place_of_off (hplace hoff)
  unfold Lcd.write
  split
  · unfold writeControl
    dsimp only
    split
    · exact ⟨Nat.zero_lt_succ _, Nat.zero_lt_succ _, fun _ => rfl⟩
    · next hstays =>
      refine hkept _ rfl rfl fun hoff => ?_
      simpa [hoff] using hstays
  all_goals exact hkept _ rfl rfl id

theorem Reachable.bounded {v : Lcd} (h : v.Reachable) : v.Bounded := by
  induction h with
  | reset v => exact at_postBoot.bounded
  | step _ cycles ih => exact ih.step cycles
  | write _ addr value ih => exact ih.write addr value

/-- Wherever the display has come to, its beam is within the frame. While it is on, `n` cycles
take the beam from place `p` to place `p + n`, counted in frames of 70224 cycles, and they request
the vertical blank exactly if its first cycle is among them, in however many steps and of whatever
lengths they pass. While it is off steps change nothing, and the beam waits at the start of the
frame. -/
theorem beam_closed_form {v : Lcd} (h : v.Reachable) :
    v.line.toNat < 154 ∧ v.lineClock < 456 ∧
    (v.enabled = true → ∀ ns : List Nat,
      (steps ns v).1.place = (v.place + ns.sum) % 70224 ∧
        (Interrupt.vblank.isIn (steps ns v).2 = true ↔
          ∃ t, v.place < t ∧ t ≤ v.place + ns.sum ∧ t % 70224 = 144 * 456)) ∧
    (v.enabled = false → v.place = 0 ∧ ∀ n, v.step n = (v, 0)) ∧
    ∀ addr value, (v.write addr value).enabled = false → (v.write addr value).place = 0 := by
  have hbounded := h.bounded
  refine ⟨hbounded.line_lt, hbounded.lineClock_lt, fun hon ns => ?_,
    fun hoff => ⟨hbounded.place_of_off hoff, step_of_off hoff⟩,
    fun addr value => (hbounded.write addr value).place_of_off⟩
  have hat := hbounded.at_place hon
  rw [steps_eq hon, isIn_vblank_requestsOf, hat.blank_walk_pieces]
  exact ⟨(hat.pass_pieces ns).place_eq, Iff.rfl⟩

/-- The display some cycles after power-on. -/
def afterPowerOn (cycles : Nat) : Lcd := (postBoot.step cycles).1

theorem reachable_afterPowerOn (cycles : Nat) : (afterPowerOn cycles).Reachable :=
  reachable_postBoot.step cycles

theorem at_afterPowerOn (cycles : Nat) : (afterPowerOn cycles).At cycles := by
  have hstep := at_postBoot.step cycles
  rwa [Nat.zero_add] at hstep

/-- Three cycles before the first vertical blank and between two samples: two cycles do not lead
there, and one and two more do. -/
theorem beam_closed_form_afterPowerOn :
    (afterPowerOn 65661).Reachable ∧ (afterPowerOn 65661).place = 65661 ∧
      Interrupt.vblank.isIn (steps [1, 1] (afterPowerOn 65661)).2 = false ∧
      Interrupt.vblank.isIn (steps [1, 2] (afterPowerOn 65661)).2 = true ∧
      (steps [1, 2, 4559, 1] (afterPowerOn 65661)).1.place = 0 := by
  have hreachable := reachable_afterPowerOn 65661
  have hat := at_afterPowerOn 65661
  have hplace : (afterPowerOn 65661).place = 65661 := hat.place_eq
  obtain ⟨-, -, hon, -⟩ := beam_closed_form hreachable
  have hsteps := hon hat.enabled
  rw [hplace] at hsteps
  refine ⟨hreachable, hplace, ?_, ?_, (hsteps [1, 2, 4559, 1]).1⟩
  · rw [Bool.eq_false_iff, ne_eq, (hsteps [1, 1]).2]
    rintro ⟨t, hafter, hbefore, hbegins⟩
    simp only [List.sum_cons, List.sum_nil] at hbefore
    omega
  · exact (hsteps [1, 2]).2.mpr ⟨65664, by decide, by decide, by decide⟩

end Handheld.Lcd
