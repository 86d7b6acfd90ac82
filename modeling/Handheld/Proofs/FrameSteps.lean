import Handheld.Proofs.FramePacing
import Mathlib.Data.List.Chain

/-!
The steps of a frame. Each begins where the one before has led, and the frame ends where the last
of them leads. Only the first can begin at a breakpoint, and only if one is to be stepped over.
-/
namespace Handheld

namespace Core

variable {V A : Type} [VideoUnit V] [AudioUnit A]

/-- The states from which a frame takes a step, in order. -/
def frameSteps (breakpoints : Breakpoints) (elapsed : Nat) (s : Core V A) : List (Core V A) :=
  if elapsed < cyclesPerFrame then
    if !s.cpu.skipBreakpoint && breakpoints.isHit s.cpu.regs.pc then []
    else
      match _h : Exec.step (s.setSkip false) with
      | (.ok taken, t) => s :: frameSteps breakpoints (elapsed + taken) t
      | (.error _, _) => [s]
  else []
  termination_by cyclesPerFrame - elapsed
  decreasing_by
    have := Exec.step_pos _h
    omega

variable {breakpoints : Breakpoints} {elapsed : Nat} {s : Core V A}

/-- The state after a step of a frame. -/
def frameNext (s : Core V A) : Core V A := (Exec.step (s.setSkip false)).2

theorem frameSteps_of_step {taken : Nat} {t : Core V A} (hlt : elapsed < cyclesPerFrame)
    (hmiss : ¬(!s.cpu.skipBreakpoint && breakpoints.isHit s.cpu.regs.pc) = true)
    (hstep : Exec.step (s.setSkip false) = (.ok taken, t)) :
    s.frameSteps breakpoints elapsed = s :: t.frameSteps breakpoints (elapsed + taken) := by
  rw [frameSteps, if_pos hlt, if_neg hmiss, hstep]

theorem frameSteps_of_failure {e : CpuError} {t : Core V A} (hlt : elapsed < cyclesPerFrame)
    (hmiss : ¬(!s.cpu.skipBreakpoint && breakpoints.isHit s.cpu.regs.pc) = true)
    (hstep : Exec.step (s.setSkip false) = (.error e, t)) :
    s.frameSteps breakpoints elapsed = [s] := by
  rw [frameSteps, if_pos hlt, if_neg hmiss, hstep]

/-- Each step of a frame begins where the one before has led. -/
theorem isChain_frameSteps :
    List.IsChain (fun u v => v = u.frameNext) (s.frameSteps breakpoints elapsed) ∧
      ∀ u ∈ (s.frameSteps breakpoints elapsed).head?, u = s := by
  fun_induction frameSteps breakpoints elapsed s with
  | case1 elapsed s hlt hhit => simp
  | case2 elapsed s hlt hmiss taken t hstep ih =>
    obtain ⟨hchain, hhead⟩ := ih
    refine ⟨List.isChain_cons.mpr ⟨?_, hchain⟩, by simp⟩
    intro v hv
    rw [hhead v hv, frameNext, hstep]
  | case3 elapsed s hlt hmiss e t hstep => simp
  | case4 elapsed s hle => simp

/-- The frame ends where its last step has led. -/
theorem frame_of_frameSteps :
    (s.runFrameFrom breakpoints elapsed).2.setFrameCycles 0 =
      (((s.frameSteps breakpoints elapsed).getLast?.map frameNext).getD s).setFrameCycles 0 := by
  fun_induction runFrameFrom breakpoints elapsed s with
  | case1 elapsed s hlt pc hhit =>
    rw [frameSteps, if_pos hlt, if_pos hhit, setFrameCycles_setFrameCycles]
    rfl
  | case2 elapsed s hlt pc hmiss taken t hstep ih =>
    have hnext : s.frameNext = t := by rw [frameNext, hstep]
    rw [ih, frameSteps_of_step hlt hmiss hstep, List.getLast?_cons, ← hnext]
    cases (s.frameNext.frameSteps breakpoints (elapsed + taken)).getLast? <;> rfl
  | case3 elapsed s hlt pc hmiss e t hstep =>
    have hnext : s.frameNext = t := by rw [frameNext, hstep]
    rw [frameSteps_of_failure hlt hmiss hstep, setFrameCycles_setFrameCycles, ← hnext]
    rfl
  | case4 elapsed s hle =>
    rw [frameSteps, if_neg hle, setFrameCycles_setFrameCycles]
    rfl

/-- A frame takes no step past a breakpoint unless there is one to be stepped over. -/
theorem isHit_of_mem_frameSteps (hskip : s.cpu.skipBreakpoint = false) :
    ∀ u ∈ s.frameSteps breakpoints elapsed, breakpoints.isHit u.cpu.regs.pc = false := by
  fun_induction frameSteps breakpoints elapsed s with
  | case1 elapsed s hlt hhit => simp
  | case2 elapsed s hlt hmiss taken t hstep ih =>
    intro u hu
    rcases List.mem_cons.mp hu with rfl | hrest
    · simpa [hskip] using hmiss
    · exact ih (step_bare hstep).2 u hrest
  | case3 elapsed s hlt hmiss e t hstep =>
    intro u hu
    rw [List.mem_singleton.mp hu]
    simpa [hskip] using hmiss
  | case4 elapsed s hle => simp

/-- Only the first instruction of a frame can be at a breakpoint. -/
theorem frameSteps_eq_cons {u : Core V A} {rest : List (Core V A)}
    (h : s.frameSteps breakpoints elapsed = u :: rest) :
    u = s ∧ ∀ v ∈ rest, breakpoints.isHit v.cpu.regs.pc = false := by
  rw [frameSteps] at h
  split at h
  · split at h
    · cases h
    · split at h
      · next taken t hstep =>
        obtain ⟨rfl, rfl⟩ := List.cons.inj h
        exact ⟨rfl, isHit_of_mem_frameSteps (step_bare hstep).2⟩
      · next e t hstep =>
        obtain ⟨rfl, rfl⟩ := List.cons.inj h
        exact ⟨rfl, by simp⟩
  · cases h

/-- A frame begins with a step, unless it stops at once. -/
theorem exists_frameSteps (hlt : elapsed < cyclesPerFrame)
    (hmiss : (!s.cpu.skipBreakpoint && breakpoints.isHit s.cpu.regs.pc) = false) :
    ∃ rest, s.frameSteps breakpoints elapsed = s :: rest := by
  rw [frameSteps, if_pos hlt, if_neg (by simp [hmiss])]
  split
  · exact ⟨_, rfl⟩
  · exact ⟨[], rfl⟩

/-- Whatever ends a frame, less than a frame is left for the next one. -/
theorem frameCycles_of_frame (hlt : elapsed < cyclesPerFrame + longestStep) :
    (runFrameFrom breakpoints elapsed s).2.cpu.frameCycles < cyclesPerFrame := by
  fun_induction runFrameFrom breakpoints elapsed s with
  | case1 elapsed s hin pc hhit => exact hin
  | case2 elapsed s hin pc hmiss taken t hstep ih =>
    have htaken := (cycles_of_step hstep).2
    exact ih (by omega)
  | case3 elapsed s hin pc hmiss e t hstep => exact hin
  | case4 elapsed s hout =>
    have hframe : longestStep < cyclesPerFrame := Console.longestStep_lt
    rw [frameCycles_setFrameCycles]
    omega

end Core

end Handheld
