import Handheld.Progress
import Handheld.Breakpoints

/-!
Frames. A frame is a fixed number of cycles; what an instruction takes past its end counts
toward the next one. Before each instruction the breakpoints are asked, unless the last
stop is being stepped over. A frame always ends, because every step takes time.
-/
namespace Handheld

/-- Cycles in a frame, of which there are sixty in a second. -/
def cyclesPerFrame : Nat := cyclesPerSecond / 60

namespace Core

variable {V A : Type} [VideoUnit V] [AudioUnit A]

def setSkip (s : Core V A) (skip : Bool) : Core V A :=
  { s with cpu := { s.cpu with skipBreakpoint := skip } }

def setFrameCycles (s : Core V A) (cycles : Nat) : Core V A :=
  { s with cpu := { s.cpu with frameCycles := cycles } }

/-- Runs on from a moment at which `elapsed` cycles of the frame have passed. Gives the
breakpoint that is reached before the end of the frame, if any. -/
def runFrameFrom (breakpoints : Breakpoints) (elapsed : Nat) (s : Core V A) :
    Except CpuError (Option UInt16) × Core V A :=
  if elapsed < cyclesPerFrame then
    let pc := s.cpu.regs.pc
    if !s.cpu.skipBreakpoint && breakpoints.isHit pc then
      (.ok (some pc), s.setFrameCycles elapsed)
    else
      match _h : Exec.step (s.setSkip false) with
      | (.ok taken, s) => runFrameFrom breakpoints (elapsed + taken) s
      | (.error e, s) => (.error e, s.setFrameCycles elapsed)
  else (.ok none, s.setFrameCycles (elapsed - cyclesPerFrame))
  termination_by cyclesPerFrame - elapsed
  decreasing_by
    have := Exec.step_pos _h
    omega

def runFrame (breakpoints : Breakpoints) (s : Core V A) :
    Except CpuError (Option UInt16) × Core V A :=
  runFrameFrom breakpoints s.cpu.frameCycles s

/-- A breakpoint is reached within the frame. If the instruction there was to be stepped
over, then time has passed before it. -/
theorem frameCycles_of_breakpoint {breakpoints : Breakpoints} {elapsed : Nat}
    {s s' : Core V A} {pc : UInt16}
    (h : runFrameFrom breakpoints elapsed s = (.ok (some pc), s')) :
    elapsed < cyclesPerFrame ∧ elapsed ≤ s'.cpu.frameCycles ∧
      (s.cpu.skipBreakpoint = true → elapsed < s'.cpu.frameCycles) := by
  fun_induction runFrameFrom breakpoints elapsed s with
  | case1 elapsed s hlt pc' hhit =>
    obtain ⟨-, rfl⟩ := Prod.mk.inj h
    exact ⟨hlt, Nat.le_refl _, fun hskip => by simp [hskip] at hhit⟩
  | case2 elapsed s hlt pc' hmiss taken next hstep ih =>
    have hpos := Exec.step_pos hstep
    have := ih h
    omega
  | case3 elapsed s hlt pc' hmiss e next hstep => cases h
  | case4 elapsed s hle => cases h

end Core

end Handheld
