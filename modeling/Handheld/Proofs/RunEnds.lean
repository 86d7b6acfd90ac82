import Handheld.Proofs.Resumption
import Handheld.Proofs.Runs

/-!
Every run of a session ends. A go at a frame completes it, stops or ends a pause; only a completed
frame counts, but after the end of a pause the next go takes a step, and steps take time. So the
number of goes is bounded by the frames and the steps, and the number of steps by the cycles of the
frames.
-/
namespace Handheld

namespace Core

variable {V A : Type} [VideoUnit V] [AudioUnit A]

/-- Steps that succeed, up to the last one if there is an error. -/
def EndIn {α : Type} (steps : List (Core V A)) : Except CpuError α → Prop
  | .ok _ => ∀ s ∈ steps, s.event ≠ .failed
  | .error e =>
    ∃ before s, steps = before ++ [s] ∧ (∀ u ∈ before, u.event ≠ .failed) ∧ s.outcome = .error e

/-- Steps that succeed may come before. -/
theorem EndIn.append {α : Type} {first rest : List (Core V A)} {result : Except CpuError α}
    (hfirst : ∀ s ∈ first, s.event ≠ .failed) (hrest : EndIn rest result) :
    EndIn (first ++ rest) result := by
  cases result with
  | ok a => exact List.forall_mem_append.mpr ⟨hfirst, hrest⟩
  | error e =>
    obtain ⟨before, s, rfl, hbefore, hs⟩ := hrest
    exact ⟨first ++ before, s, (List.append_assoc ..).symm,
      List.forall_mem_append.mpr ⟨hfirst, hbefore⟩, hs⟩

theorem outcome_retag (f : Nat) (skip : Bool) (s : Core V A) :
    (s.retag f skip).outcome = s.outcome := by
  have hstep := congrArg Prod.fst (step_retag f skip s)
  rwa [step_eq, step_eq] at hstep

variable {s t : Core V A}

/-- The outcome of a step of a frame. -/
theorem outcome_of_frameStep {result : Except CpuError Nat}
    (h : Exec.step (s.setSkip false) = (result, t)) : s.outcome = result := by
  have houtcome : (s.setSkip false).outcome = s.outcome := outcome_retag s.cpu.frameCycles false s
  rw [step_eq] at h
  rw [← houtcome]
  exact (Prod.mk.inj h).1

theorem event_ne_failed {taken : Nat} (h : s.outcome = .ok taken) : s.event ≠ .failed := by
  intro hfailed
  rw [outcome, if_pos hfailed] at h
  cases h

/-- How much later than the frame cycles of its end a frame may be over: they start anew when it
is completed, and leave out a step that fails. -/
def overtime : Except CpuError (Option UInt16) → Nat
  | .error _ => 4
  | .ok none => cyclesPerFrame
  | .ok (some _) => 0

variable {breakpoints : Breakpoints} {elapsed : Nat}

-- The length of a frame must not be computed with.
attribute [local irreducible] cyclesPerFrame

/-- A frame fails with the error of its last step. -/
theorem endIn_frameSteps :
    EndIn (s.frameSteps breakpoints elapsed) (s.runFrameFrom breakpoints elapsed).1 := by
  fun_induction runFrameFrom breakpoints elapsed s with
  | case1 elapsed s hlt pc hhit =>
    rw [frameSteps, if_pos hlt, if_pos hhit]
    exact List.forall_mem_nil _
  | case2 elapsed s hlt pc hmiss taken t hstep ih =>
    have hgood : ∀ u ∈ [s], u.event ≠ .failed :=
      List.forall_mem_singleton.mpr (event_ne_failed (outcome_of_frameStep hstep))
    rw [frameSteps_of_step hlt hmiss hstep]
    exact ih.append hgood
  | case3 elapsed s hlt pc hmiss e t hstep =>
    rw [frameSteps_of_failure hlt hmiss hstep]
    exact ⟨[], s, rfl, List.forall_mem_nil _, outcome_of_frameStep hstep⟩
  | case4 elapsed s hle =>
    rw [frameSteps, if_neg hle]
    exact List.forall_mem_nil _

/-- Every step of a frame takes at least one machine cycle. -/
theorem length_frameSteps_le :
    4 * (s.frameSteps breakpoints elapsed).length + elapsed ≤
      (s.runFrameFrom breakpoints elapsed).2.cpu.frameCycles +
        overtime (s.runFrameFrom breakpoints elapsed).1 := by
  fun_induction runFrameFrom breakpoints elapsed s with
  | case1 elapsed s hlt pc hhit =>
    rw [frameSteps, if_pos hlt, if_pos hhit]
    exact Nat.le_of_eq (Nat.zero_add elapsed)
  | case2 elapsed s hlt pc hmiss taken t hstep ih =>
    obtain ⟨-, -, -, hmin, -⟩ := step_cost hstep
    rw [frameSteps_of_step hlt hmiss hstep, List.length_cons]
    omega
  | case3 elapsed s hlt pc hmiss e t hstep =>
    rw [frameSteps_of_failure hlt hmiss hstep, frameCycles_setFrameCycles, overtime]
    exact Nat.le_of_eq (Nat.add_comm _ _)
  | case4 elapsed s hle =>
    rw [frameSteps, if_neg hle, frameCycles_setFrameCycles, overtime, List.length_nil]
    omega

end Core

namespace Console

/-- Goes at a frame, one after the other, up to the end of a run: their number, the states from
which they take steps, and what the run gives. -/
inductive Goes (frames : Nat) (stopOnBreak : Bool) : Nat → List (Core Lcd Sound) → Summary →
    Console → Except CpuError Summary → Console → Prop
  | ended {done : Summary} {c : Console} (hover : isOver frames done = true) :
      Goes frames stopOnBreak 0 [] done c (.ok done) c
  | failed {done : Summary} {c d : Console} {e : CpuError} (hgo : isOver frames done = false)
      (hturn : turn stopOnBreak done c = (.error e, d)) :
      Goes frames stopOnBreak 1 c.frameSteps done c (.error e) d
  | go {k : Nat} {steps : List (Core Lcd Sound)} {done done' : Summary} {c c' d : Console}
      {result : Except CpuError Summary} (hgo : isOver frames done = false)
      (hturn : turn stopOnBreak done c = (.ok done', c'))
      (hrest : Goes frames stopOnBreak k steps done' c' result d) :
      Goes frames stopOnBreak (k + 1) (c.frameSteps ++ steps) done c result d

/-- How a run ends after its steps: with the error of the last one, with all its frames or with
the first stop at a breakpoint. -/
inductive Ending (frames : Nat) (stopOnBreak : Bool) (steps : List (Core Lcd Sound)) :
    Except CpuError Summary → Console → Prop
  | failed {e : CpuError} {d : Console}
      (hsteps : Core.EndIn steps (.error e : Except CpuError Summary)) :
      Ending frames stopOnBreak steps (.error e) d
  | completed {hits : Array Hit} {d : Console} (hsteps : ∀ s ∈ steps, s.event ≠ .failed)
      (hhits : stopOnBreak = true → hits = #[]) :
      Ending frames stopOnBreak steps (.ok ⟨frames, hits, false⟩) d
  | stopped {done : Nat} {d : Console} (hsteps : ∀ s ∈ steps, s.event ≠ .failed)
      (hstop : stopOnBreak = true) (hlt : done < frames)
      (hpaused : d.pausedAt = some d.core.cpu.regs.pc) :
      Ending frames stopOnBreak steps
        (.ok ⟨done, #[⟨d.core.cpu.regs.pc, d.core.cpu.debugText⟩], true⟩) d

variable {frames k : Nat} {stopOnBreak : Bool} {steps : List (Core Lcd Sound)}
  {done done' : Summary} {c c' d : Console} {result : Except CpuError Summary}

/-- What a run gives is what goes lead to. -/
theorem exists_goes (frames : Nat) (stopOnBreak : Bool) (done : Summary) (c : Console) :
    ∃ k steps, Goes frames stopOnBreak k steps done c (runFrom frames stopOnBreak done c).1
      (runFrom frames stopOnBreak done c).2 := by
  fun_induction runFrom frames stopOnBreak done c with
  | case1 done c hover => exact ⟨0, [], .ended hover⟩
  | case2 done c hgo e d hturn =>
    exact ⟨1, c.frameSteps, .failed (Bool.eq_false_iff.mpr hgo) hturn⟩
  | case3 done c hgo done' d hturn ih =>
    obtain ⟨k, steps, hgoes⟩ := ih
    exact ⟨k + 1, c.frameSteps ++ steps, .go (Bool.eq_false_iff.mpr hgo) hturn hgoes⟩

-- The length of a frame must not be computed with.
attribute [local irreducible] cyclesPerFrame

/-- The cycles of the frames that are done and of the one that has begun. -/
def passed (done : Summary) (c : Console) : Nat :=
  done.frames * cyclesPerFrame + c.core.cpu.frameCycles

/-- How many goes may take no step before the next one does. -/
def spare (c : Console) : Nat :=
  (if c.core.cpu.skipBreakpoint then 0 else 1) + (if c.paused then 1 else 0)

/-- How many goes may be still to come, apart from those that take a step. -/
def ahead (frames : Nat) (done : Summary) (c : Console) : Nat :=
  if isOver frames done then 0 else frames - done.frames + c.spare

theorem ahead_le (frames : Nat) (done : Summary) (c : Console) :
    c.ahead frames done ≤ frames - done.frames + c.spare := by
  unfold ahead
  split
  · exact Nat.zero_le _
  · exact Nat.le_refl _

theorem spare_le (h : c.pausedAt = none) : c.spare ≤ 1 := by
  rw [spare, paused, h]
  cases c.core.cpu.skipBreakpoint <;> decide

theorem spare_le_two (c : Console) : c.spare ≤ 2 := by
  rw [spare]
  cases c.core.cpu.skipBreakpoint <;> cases c.paused <;> decide

theorem spare_pos {pc : UInt16} (h : c.pausedAt = some pc) : 0 < c.spare := by
  rw [spare, paused, h]
  exact Nat.lt_add_left _ Nat.one_pos

/-- A go that leaves no breakpoint takes no step only if it is one of those that may. -/
theorem spare_add_pos (hpaused : c.pausedAt = none)
    (hwithin : c.core.cpu.frameCycles < cyclesPerFrame) :
    0 < c.spare + c.frameSteps.length := by
  cases hskip : c.core.cpu.skipBreakpoint with
  | false =>
    have hspare : c.spare = 1 := by rw [spare, paused, hpaused, hskip]; rfl
    omega
  | true =>
    have hgoes : (!c.core.cpu.skipBreakpoint && c.breakpoints.isHit c.core.cpu.regs.pc) =
        false := by
      rw [hskip]
      rfl
    obtain ⟨rest, hsteps⟩ := Core.exists_frameSteps hwithin hgoes
    rw [frameSteps_of_not_paused hpaused, hsteps, List.length_cons]
    omega

theorem frameSteps_of_paused {pc : UInt16} (h : c.pausedAt = some pc) : c.frameSteps = [] := by
  rw [frameSteps, paused, h]
  rfl

/-- The steps of a frame that is not paused. -/
theorem frameSteps_of_run {core : Core Lcd Sound} {outcome : Except CpuError (Option UInt16)}
    (hpaused : c.pausedAt = none) (hwithin : c.core.cpu.frameCycles < cyclesPerFrame)
    (hrun : c.core.runFrame c.breakpoints = (outcome, core)) :
    Core.EndIn c.frameSteps outcome ∧
      4 * c.frameSteps.length + c.core.cpu.frameCycles ≤
        core.cpu.frameCycles + Core.overtime outcome ∧
      core.cpu.frameCycles < cyclesPerFrame := by
  have hrun : c.core.runFrameFrom c.breakpoints c.core.cpu.frameCycles = (outcome, core) := hrun
  have hend : Core.EndIn (c.core.frameSteps c.breakpoints c.core.cpu.frameCycles)
      (c.core.runFrameFrom c.breakpoints c.core.cpu.frameCycles).1 := Core.endIn_frameSteps
  have hlength : 4 * (c.core.frameSteps c.breakpoints c.core.cpu.frameCycles).length +
      c.core.cpu.frameCycles ≤
        (c.core.runFrameFrom c.breakpoints c.core.cpu.frameCycles).2.cpu.frameCycles +
          Core.overtime (c.core.runFrameFrom c.breakpoints c.core.cpu.frameCycles).1 :=
    Core.length_frameSteps_le
  have hleft : (c.core.runFrameFrom c.breakpoints c.core.cpu.frameCycles).2.cpu.frameCycles <
      cyclesPerFrame := Core.frameCycles_of_frame (Nat.lt_add_right _ hwithin)
  rw [hrun] at hend hlength hleft
  rw [frameSteps_of_not_paused hpaused]
  exact ⟨hend, hlength, hleft⟩

/-- What a go that does not fail does to the cycles and to the goes that are still to come. -/
structure Advances (frames : Nat) (done : Summary) (c : Console) (done' : Summary) (c' : Console) :
    Prop where
  succeed : ∀ s ∈ c.frameSteps, s.event ≠ .failed
  passed_le : 4 * c.frameSteps.length + passed done c ≤ passed done' c'
  passed_lt : passed done' c' < frames * cyclesPerFrame + Core.longestStep
  frameCycles_lt : c'.core.cpu.frameCycles < cyclesPerFrame
  ahead_lt : ahead frames done' c' < ahead frames done c + c.frameSteps.length

theorem ahead_of_not_isOver (h : isOver frames done = false) :
    c.ahead frames done = frames - done.frames + c.spare := by
  rw [ahead, h]
  rfl

section Turn

variable {core : Core Lcd Sound} {pc : UInt16}

/-- A frame that is completed. -/
theorem advances_of_complete (hpaused : c.pausedAt = none)
    (hrun : c.core.runFrame c.breakpoints = (.ok none, core))
    (hwithin : c.core.cpu.frameCycles < cyclesPerFrame) (hgo : isOver frames done = false) :
    Advances frames done c { done with frames := done.frames + 1 } { c with core := core } := by
  obtain ⟨-, hlt⟩ := lt_of_not_isOver (Bool.eq_false_iff.mp hgo)
  have htarget := frame_le hlt
  obtain ⟨hend, hlength, hleft⟩ := frameSteps_of_run hpaused hwithin hrun
  have hover : core.cpu.frameCycles < Core.longestStep :=
    Core.frameCycles_of_complete hrun (Nat.lt_add_right _ hwithin)
  obtain ⟨rest, hsteps⟩ := exists_frameSteps hpaused hwithin (by simp [hrun])
  have hspare : ({ c with core := core } : Console).spare ≤ 1 := spare_le hpaused
  refine ⟨hend, ?_, ?_, hleft, ?_⟩
  · simp only [passed, Nat.succ_mul, Core.overtime] at hlength ⊢
    omega
  · simp only [passed, Nat.succ_mul]
    omega
  · have hle := ahead_le frames { done with frames := done.frames + 1 } { c with core := core }
    rw [ahead_of_not_isOver hgo, hsteps, List.length_cons]
    dsimp only at hle
    omega

/-- A stop for good. -/
theorem advances_of_stop (hpaused : c.pausedAt = none)
    (hrun : c.core.runFrame c.breakpoints = (.ok (some pc), core))
    (hwithin : c.core.cpu.frameCycles < cyclesPerFrame) (hgo : isOver frames done = false)
    (hits : Array Hit) :
    Advances frames done c { done with hits := hits, stoppedEarly := true }
      { c with core := core, pausedAt := some pc } := by
  obtain ⟨-, hlt⟩ := lt_of_not_isOver (Bool.eq_false_iff.mp hgo)
  have htarget := frame_le hlt
  obtain ⟨hend, hlength, hleft⟩ := frameSteps_of_run hpaused hwithin hrun
  refine ⟨hend, ?_, ?_, hleft, ?_⟩
  · simp only [passed, Core.overtime] at hlength ⊢
    omega
  · simp only [passed]
    omega
  · rw [ahead_of_not_isOver hgo, ahead, isOver, Bool.true_or, if_pos rfl]
    omega

/-- A stop that ends at once: what it spends is the go that may take no step. -/
theorem advances_of_leave (hpaused : c.pausedAt = none)
    (hrun : c.core.runFrame c.breakpoints = (.ok (some pc), core))
    (hwithin : c.core.cpu.frameCycles < cyclesPerFrame) (hgo : isOver frames done = false)
    (hits : Array Hit) :
    Advances frames done c { done with hits := hits }
      { c with core := core.setSkip true, pausedAt := none } := by
  obtain ⟨-, hlt⟩ := lt_of_not_isOver (Bool.eq_false_iff.mp hgo)
  have htarget := frame_le hlt
  obtain ⟨hend, hlength, hleft⟩ := frameSteps_of_run hpaused hwithin hrun
  refine ⟨hend, ?_, ?_, hleft, ?_⟩
  · simp only [passed, Core.overtime, Core.setSkip] at hlength ⊢
    omega
  · simp only [passed, Core.setSkip]
    omega
  · have hle := ahead_le frames { done with hits := hits }
      { c with core := core.setSkip true, pausedAt := none }
    have hnone : ({ c with core := core.setSkip true, pausedAt := none } : Console).spare = 0 := rfl
    have hpos := spare_add_pos hpaused hwithin
    rw [ahead_of_not_isOver hgo]
    dsimp only at hle
    omega

/-- The end of a pause. -/
theorem advances_of_resume (hpaused : c.pausedAt = some pc)
    (hwithin : c.core.cpu.frameCycles < cyclesPerFrame) (hgo : isOver frames done = false) :
    Advances frames done c done { c with core := c.core.setSkip true, pausedAt := none } := by
  obtain ⟨-, hlt⟩ := lt_of_not_isOver (Bool.eq_false_iff.mp hgo)
  have htarget := frame_le hlt
  have hsteps := frameSteps_of_paused hpaused
  refine ⟨?_, ?_, ?_, hwithin, ?_⟩
  · rw [hsteps]
    exact List.forall_mem_nil _
  · rw [hsteps]
    exact Nat.le_of_eq (Nat.zero_add _)
  · simp only [passed, Core.setSkip]
    omega
  · have hle := ahead_le frames done { c with core := c.core.setSkip true, pausedAt := none }
    have hnone : ({ c with core := c.core.setSkip true, pausedAt := none } : Console).spare = 0 :=
      rfl
    have hpos := spare_pos hpaused
    rw [ahead_of_not_isOver (c := c) hgo]
    omega

end Turn

theorem advances_turn (h : turn stopOnBreak done c = (.ok done', c'))
    (hgo : isOver frames done = false) (hwithin : c.core.cpu.frameCycles < cyclesPerFrame) :
    Advances frames done c done' c' := by
  obtain ⟨core, hpaused, hrun, rfl, rfl⟩ | ⟨pc, core, hpaused, hrun, -, rfl, rfl⟩ |
    ⟨pc, core, hpaused, hrun, -, rfl, rfl⟩ | ⟨pc, hpaused, rfl, rfl⟩ := turn_cases h
  · exact advances_of_complete hpaused hrun hwithin hgo
  · exact advances_of_stop hpaused hrun hwithin hgo _
  · exact advances_of_leave hpaused hrun hwithin hgo _
  · exact advances_of_resume hpaused hwithin hgo

/-- The cycles that have passed bound the steps of a run, and these and the frames the number of
its goes. -/
theorem Goes.bounded (h : Goes frames stopOnBreak k steps done c result d)
    (hwithin : c.core.cpu.frameCycles < cyclesPerFrame) :
    4 * steps.length + passed done c ≤
        max (passed done c) (frames * cyclesPerFrame + Core.longestStep) ∧
      k ≤ c.ahead frames done + steps.length + 1 ∧
      d.core.cpu.frameCycles < cyclesPerFrame := by
  induction h with
  | ended hover =>
    refine ⟨?_, Nat.zero_le _, hwithin⟩
    rw [List.length_nil]
    omega
  | failed hgo hturn =>
    obtain ⟨core, hpaused, hrun, rfl⟩ := turn_error hturn
    obtain ⟨-, hlength, hleft⟩ := frameSteps_of_run hpaused hwithin hrun
    have htarget := frame_le (lt_of_not_isOver (Bool.eq_false_iff.mp hgo)).2
    have hlongest : 4 ≤ Core.longestStep := by decide
    refine ⟨?_, Nat.le_add_left _ _, hleft⟩
    simp only [passed, Core.overtime] at hlength ⊢
    omega
  | go hgo hturn hrest ih =>
    have hadvances := advances_turn hturn hgo hwithin
    -- A go that leaves steps to come ends before the last frame does, so the maximum is not passed.
    obtain ⟨hlength, hgoes, hleft⟩ := ih hadvances.frameCycles_lt
    have hpassed := hadvances.passed_le
    have hlate := hadvances.passed_lt
    have hahead := hadvances.ahead_lt
    refine ⟨?_, ?_, hleft⟩
    · rw [List.length_append]
      omega
    · rw [List.length_append]
      omega

/-- Steps that succeed may come before. -/
theorem Ending.append {first : List (Core Lcd Sound)} (hfirst : ∀ s ∈ first, s.event ≠ .failed)
    (h : Ending frames stopOnBreak steps result d) :
    Ending frames stopOnBreak (first ++ steps) result d := by
  cases h with
  | failed hsteps => exact .failed (hsteps.append hfirst)
  | completed hsteps hhits =>
    exact .completed (List.forall_mem_append.mpr ⟨hfirst, hsteps⟩) hhits
  | stopped hsteps hstop hlt hpaused =>
    exact .stopped (List.forall_mem_append.mpr ⟨hfirst, hsteps⟩) hstop hlt hpaused

/-- A run that is over has no more goes. -/
theorem Goes.of_isOver (h : Goes frames stopOnBreak k steps done c result d)
    (hover : isOver frames done = true) : steps = [] ∧ result = .ok done ∧ d = c := by
  cases h with
  | ended => exact ⟨rfl, rfl, rfl⟩
  | failed hgo =>
    rw [hover] at hgo
    cases hgo
  | go hgo =>
    rw [hover] at hgo
    cases hgo

/-- However many goes it takes, a run that has not yet stopped ends in one of three ways. -/
theorem Goes.ending (h : Goes frames stopOnBreak k steps done c result d)
    (hwithin : c.core.cpu.frameCycles < cyclesPerFrame) (hearly : done.stoppedEarly = false)
    (hframes : done.frames ≤ frames) (hhits : stopOnBreak = true → done.hits = #[]) :
    Ending frames stopOnBreak steps result d := by
  induction h with
  | @ended done c hover =>
    obtain ⟨count, hits, early⟩ := done
    obtain rfl : early = false := hearly
    obtain rfl : count = frames := Nat.le_antisymm hframes (of_decide_eq_true hover)
    exact .completed (List.forall_mem_nil _) hhits
  | failed hgo hturn =>
    obtain ⟨core, hpaused, hrun, rfl⟩ := turn_error hturn
    exact .failed (frameSteps_of_run hpaused hwithin hrun).1
  | go hgo hturn hrest ih =>
    have hadvances := advances_turn hturn hgo hwithin
    have hlt := (lt_of_not_isOver (Bool.eq_false_iff.mp hgo)).2
    have hnext := ih hadvances.frameCycles_lt
    obtain ⟨core, -, -, rfl, -⟩ | ⟨pc, core, -, hrun, hstop, rfl, rfl⟩ |
      ⟨pc, core, -, -, hleaves, rfl, -⟩ | ⟨pc, -, rfl, -⟩ := turn_cases hturn
    · exact (hnext hearly hlt hhits).append hadvances.succeed
    · obtain ⟨rfl, rfl, rfl⟩ := hrest.of_isOver rfl
      obtain ⟨rfl, -⟩ := Core.stop_of_breakpoint hrun
      rw [hhits hstop, List.append_nil]
      exact .stopped (d := ⟨core, _, _, some core.cpu.regs.pc⟩) hadvances.succeed hstop hlt rfl
    · exact (hnext hearly hframes (by simp [hleaves])).append hadvances.succeed
    · exact (hnext hearly hframes hhits).append hadvances.succeed

/-- A run that has a breakpoint to step over begins with that step. -/
theorem Goes.begins (h : Goes frames stopOnBreak k steps done c result d)
    (hgo : isOver frames done = false) (hpaused : c.pausedAt = none)
    (hskip : c.core.cpu.skipBreakpoint = true)
    (hwithin : c.core.cpu.frameCycles < cyclesPerFrame) : ∃ rest, steps = c.core :: rest := by
  have hgoes : (!c.core.cpu.skipBreakpoint && c.breakpoints.isHit c.core.cpu.regs.pc) = false := by
    rw [hskip]
    rfl
  obtain ⟨rest, hsteps⟩ := Core.exists_frameSteps hwithin hgoes
  rw [← frameSteps_of_not_paused hpaused] at hsteps
  cases h with
  | ended hover =>
    rw [hgo] at hover
    cases hover
  | failed => exact ⟨rest, hsteps⟩
  | @go _ later =>
    refine ⟨rest ++ later, ?_⟩
    rw [hsteps]
    rfl

/-- A run of a paused console first ends the pause. -/
theorem Goes.begins_of_paused {pc : UInt16}
    (h : Goes frames stopOnBreak k steps done c result d) (hgo : isOver frames done = false)
    (hpaused : c.pausedAt = some pc) (hwithin : c.core.cpu.frameCycles < cyclesPerFrame) :
    ∃ rest, steps = c.core.setSkip true :: rest := by
  cases h with
  | ended hover =>
    rw [hgo] at hover
    cases hover
  | failed _ hturn =>
    obtain ⟨core, hnone, -⟩ := turn_error hturn
    rw [hpaused] at hnone
    cases hnone
  | go _ hturn hrest =>
    have hfirst : turn stopOnBreak done c =
        (.ok done, { c with core := c.core.setSkip true, pausedAt := none }) := by
      simp only [turn, runFrame, hpaused, resume]
    obtain ⟨hdone, hresumed⟩ := Prod.mk.inj (hfirst.symm.trans hturn)
    obtain rfl := Except.ok.inj hdone
    subst hresumed
    obtain ⟨rest, rfl⟩ := hrest.begins hgo rfl rfl hwithin
    rw [frameSteps_of_paused hpaused]
    exact ⟨rest, rfl⟩

end Console

namespace Session

open Console

/-- Every run ends, whatever the breakpoints and whether or not the session is paused. It gives
the error of its last step; or the summary of all its frames, without a hit if it was to stop at
one; or the summary of less frames, with the one hit at which the session is now paused. The
steps that it takes are bounded by its frames, and the goes that it takes by both. If it begins
paused, it takes a step before it stops. -/
theorem run_ends (s : Session) (frames : Nat) (stopOnBreak : Bool)
    (hwithin : s.console.core.cpu.frameCycles < cyclesPerFrame) :
    ∃ k steps result d, s.run frames stopOnBreak = (result.mapError .cpu, { s with console := d }) ∧
      Goes frames stopOnBreak k steps .start s.console result d ∧
      k ≤ frames + steps.length + 3 ∧ 4 * steps.length ≤ frames * 69905 + 44 ∧
      d.core.cpu.frameCycles < cyclesPerFrame ∧ Ending frames stopOnBreak steps result d ∧
      (s.console.paused = true → 0 < frames →
        ∃ rest, steps = s.console.core.setSkip true :: rest) := by
  obtain ⟨k, steps, hgoes⟩ := exists_goes frames stopOnBreak .start s.console
  obtain ⟨hlength, hnumber, hleft⟩ := hgoes.bounded hwithin
  refine ⟨k, steps, _, _, rfl, hgoes, ?_, ?_, hleft, ?_, ?_⟩
  · have hahead := ahead_le frames .start s.console
    have hspare := s.console.spare_le_two
    omega
  · have hframe : cyclesPerFrame = 69905 := rfl
    have hlongest : Core.longestStep = 44 := rfl
    have hpassed : passed .start s.console = s.console.core.cpu.frameCycles := by
      simp [passed, Summary.start]
    rw [hpassed, hframe, hlongest] at hlength
    omega
  · exact hgoes.ending hwithin rfl (Nat.zero_le _) fun _ => rfl
  · intro hpaused hframes
    obtain ⟨pc, hpaused⟩ := Option.isSome_iff_exists.mp hpaused
    have hgo : isOver frames .start = false := decide_eq_false (Nat.not_le.mpr hframes)
    exact hgoes.begins_of_paused hgo hpaused hwithin

/-- A session that is paused at the first instruction of a loop. -/
def atLoop : Session := ⟨looping.runFrame.2, none⟩

/-- A run that is to stop at a breakpoint leaves this one first. -/
theorem run_ends_atLoop :
    ∃ k steps result d, atLoop.run 1 true = (result.mapError .cpu, { atLoop with console := d }) ∧
      Goes 1 true k steps .start atLoop.console result d ∧ 4 * steps.length ≤ 69949 ∧
      ∃ rest, steps = atLoop.console.core.setSkip true :: rest := by
  have hwithin : atLoop.console.core.cpu.frameCycles < cyclesPerFrame := by decide +kernel
  have hpaused : atLoop.console.paused = true := by decide +kernel
  obtain ⟨k, steps, result, d, hrun, hgoes, -, hlength, -, -, hbegins⟩ :=
    run_ends atLoop 1 true hwithin
  exact ⟨k, steps, result, d, hrun, hgoes, hlength, hbegins hpaused Nat.one_pos⟩

end Session

end Handheld
