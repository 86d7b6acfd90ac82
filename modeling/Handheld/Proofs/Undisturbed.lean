import Handheld.Proofs.Transition
import Handheld.Frame

/-!
A run that nothing interrupts: steps are taken until a number of cycles has passed. What the
frames keep beside the machine, the cycles of the current frame and the mark of a stop that
is being stepped over, has no influence on a step. A frame takes the same steps, whatever the
breakpoints, and stops at the first of its boundaries that is at a breakpoint.
-/
namespace Handheld

/-- A run: the states from which a step was taken, in order, and how it ended. The result is
the number of cycles at the end. -/
structure Drive (V A : Type) where
  visited : List (Core V A)
  result : Except CpuError Nat
  final : Core V A

namespace Core

variable {V A : Type}

/-- The machine with other values of what the frames keep. -/
def retag (frameCycles : Nat) (skip : Bool) (s : Core V A) : Core V A :=
  (s.setFrameCycles frameCycles).setSkip skip

/-- The machine without what the frames keep. -/
def bare (s : Core V A) : Core V A := s.retag 0 false

theorem frameCycles_setFrameCycles (f : Nat) (s : Core V A) :
    (s.setFrameCycles f).cpu.frameCycles = f := rfl

theorem setFrameCycles_setFrameCycles (f g : Nat) (s : Core V A) :
    (s.setFrameCycles f).setFrameCycles g = s.setFrameCycles g := rfl

theorem skip_setFrameCycles (f : Nat) (s : Core V A) :
    (s.setFrameCycles f).cpu.skipBreakpoint = s.cpu.skipBreakpoint := rfl

theorem retag_self (s : Core V A) : s.retag s.cpu.frameCycles s.cpu.skipBreakpoint = s := rfl

theorem retag_bare (f : Nat) (skip : Bool) (s : Core V A) :
    s.bare.retag f skip = s.retag f skip := rfl

/-- Machines are equal if they differ neither in what the frames keep nor otherwise. -/
theorem eq_of_bare {s t : Core V A} (hbare : s.bare = t.bare)
    (hcycles : s.cpu.frameCycles = t.cpu.frameCycles)
    (hskip : s.cpu.skipBreakpoint = t.cpu.skipBreakpoint) : s = t := by
  rw [← retag_self s, ← retag_self t, ← retag_bare _ _ s, ← retag_bare _ _ t, hbare, hcycles,
    hskip]

/-- The switches of an instruction have nothing to do with what the frames keep. -/
theorem control_tagged (i : Instruction) (cpu : Cpu) (f : Nat) (skip : Bool) :
    Manual.control i { cpu with frameCycles := f, skipBreakpoint := skip } =
      { Manual.control i cpu with frameCycles := f, skipBreakpoint := skip } := by
  cases i <;> rfl

variable [VideoUnit V] [AudioUnit A]

theorem after_retag (e : Event) (f : Nat) (skip : Bool) (s : Core V A) :
    (s.retag f skip).after e = (s.after e).retag f skip := by
  cases e with
  | idle => rfl
  | failed => rfl
  | ran i =>
    have hcontrol := control_tagged i { s.cpu with regs := (s.played i).1 } f skip
    exact congrArg (fun cpu => (⟨cpu, (s.played i).2⟩ : Core V A)) hcontrol

theorem answered_retag (f : Nat) (skip : Bool) (s : Core V A) :
    (s.retag f skip).answered = s.answered.retag f skip := by
  have hinterrupt : (s.retag f skip).interrupt? = s.interrupt? := rfl
  rw [answered, answered, hinterrupt]
  cases s.interrupt? with
  | none => rfl
  | some i => rfl

/-- A step neither reads nor changes what the frames keep. -/
theorem step_retag (f : Nat) (skip : Bool) (s : Core V A) :
    Exec.step (s.retag f skip) = ((Exec.step s).1, (Exec.step s).2.retag f skip) := by
  have hevent : (s.retag f skip).event = s.event := rfl
  have hcost : (s.retag f skip).cost = s.cost := by
    rw [cost, cost, hevent, after_retag, answered_retag]
    rfl
  have houtcome : (s.retag f skip).outcome = s.outcome := by
    rw [outcome, outcome, hevent, hcost]
    rfl
  have hnext : (s.retag f skip).next = s.next.retag f skip := by
    rw [next, next, hevent, hcost, after_retag, after_retag, answered_retag]
    by_cases h : s.event = .failed
    · rw [if_pos h, if_pos h]
    · rw [if_neg h, if_neg h]
      rfl
  rw [step_eq, step_eq, houtcome, hnext]

theorem skip_step (s : Core V A) :
    (Exec.step s).2.cpu.skipBreakpoint = s.cpu.skipBreakpoint := by
  have h := step_retag s.cpu.frameCycles s.cpu.skipBreakpoint s
  rw [retag_self] at h
  exact congrArg (fun r => r.2.cpu.skipBreakpoint) h

/-- The step of a frame is the step of the bare machine. -/
theorem step_bare {s t : Core V A} {result : Except CpuError Nat}
    (h : Exec.step (s.setSkip false) = (result, t)) :
    Exec.step s.bare = (result, t.bare) ∧ t.cpu.skipBreakpoint = false := by
  have hbare : Exec.step s.bare =
      ((Exec.step (s.setSkip false)).1, (Exec.step (s.setSkip false)).2.bare) :=
    step_retag 0 false (s.setSkip false)
  have hskip := skip_step (s.setSkip false)
  rw [h] at hbare hskip
  exact ⟨hbare, hskip⟩

/-- Steps until `target` cycles have passed, from a moment at which `elapsed` have. -/
def drive (target elapsed : Nat) (s : Core V A) : Drive V A :=
  if elapsed < target then
    match _h : Exec.step s with
    | (.ok taken, t) =>
      let d := t.drive target (elapsed + taken)
      { d with visited := s :: d.visited }
    | (.error e, t) => ⟨[s], .error e, t⟩
  else ⟨[], .ok elapsed, s⟩
  termination_by target - elapsed
  decreasing_by
    have := Exec.step_pos _h
    omega

theorem drive_of_le {target elapsed : Nat} (h : target ≤ elapsed) (s : Core V A) :
    s.drive target elapsed = ⟨[], .ok elapsed, s⟩ := by
  rw [drive, if_neg (by omega)]

theorem drive_of_ok {target elapsed taken : Nat} {s t : Core V A} (h : elapsed < target)
    (hstep : Exec.step s = (.ok taken, t)) :
    s.drive target elapsed =
      { t.drive target (elapsed + taken) with
        visited := s :: (t.drive target (elapsed + taken)).visited } := by
  rw [drive, if_pos h]
  split
  · rename_i taken' t' hstep'
    rw [hstep] at hstep'
    cases hstep'
    rfl
  · rename_i e t' hstep'
    rw [hstep] at hstep'
    cases hstep'

theorem drive_of_error {target elapsed : Nat} {e : CpuError} {s t : Core V A}
    (h : elapsed < target) (hstep : Exec.step s = (.error e, t)) :
    s.drive target elapsed = ⟨[s], .error e, t⟩ := by
  rw [drive, if_pos h]
  split
  · rename_i taken' t' hstep'
    rw [hstep] at hstep'
    cases hstep'
  · rename_i e' t' hstep'
    rw [hstep] at hstep'
    cases hstep'
    rfl

/-- What the frames keep follows a run unchanged. -/
theorem drive_retag (f : Nat) (skip : Bool) (target elapsed : Nat) (s : Core V A) :
    (s.retag f skip).drive target elapsed =
      ⟨(s.drive target elapsed).visited.map (retag f skip), (s.drive target elapsed).result,
        (s.drive target elapsed).final.retag f skip⟩ := by
  fun_induction drive target elapsed s with
  | case1 elapsed s hlt taken t hstep d ih =>
    have htagged := step_retag f skip s
    rw [hstep] at htagged
    rw [drive_of_ok hlt htagged, ih]
    rfl
  | case2 elapsed s hlt e t hstep =>
    have htagged := step_retag f skip s
    rw [hstep] at htagged
    rw [drive_of_error hlt htagged]
    rfl
  | case3 elapsed s hle =>
    rw [drive_of_le (by omega)]
    rfl

theorem visited_drive {target elapsed : Nat} (h : elapsed < target) (s : Core V A) :
    (s.drive target elapsed).visited = s :: (s.drive target elapsed).visited.tail := by
  cases hstep : Exec.step s with
  | mk result t =>
    cases result with
    | ok taken =>
      rw [drive_of_ok h hstep]
      rfl
    | error e =>
      rw [drive_of_error h hstep]
      rfl

/-- Whether a run would stop at a state. -/
def stopsAt (breakpoints : Breakpoints) (s : Core V A) : Bool := breakpoints.isHit s.cpu.regs.pc

/-- The run that is ahead of a machine, of which only the states at breakpoints are kept. The
state itself does not count if it is being stepped over. -/
def outlook (breakpoints : Breakpoints) (target elapsed : Nat) (s : Core V A) : Drive V A :=
  let d := s.bare.drive target elapsed
  { d with
    visited := (if s.cpu.skipBreakpoint then d.visited.tail else d.visited).filter
      (stopsAt breakpoints) }

variable {breakpoints : Breakpoints} {target elapsed : Nat} {s t : Core V A}

theorem outlook_setFrameCycles (f : Nat) (s : Core V A) :
    (s.setFrameCycles f).outlook breakpoints target elapsed =
      s.outlook breakpoints target elapsed := rfl

theorem outlook_of_le (h : target ≤ elapsed) (s : Core V A) :
    s.outlook breakpoints target elapsed = ⟨[], .ok elapsed, s.bare⟩ := by
  rw [outlook, drive_of_le h]
  cases s.cpu.skipBreakpoint <;> rfl

/-- A step that no breakpoint prevents changes nothing ahead. -/
theorem outlook_of_step {taken : Nat} (hlt : elapsed < target)
    (hmiss : (!s.cpu.skipBreakpoint && breakpoints.isHit s.cpu.regs.pc) = false)
    (hstep : Exec.step (s.setSkip false) = (.ok taken, t)) :
    s.outlook breakpoints target elapsed = t.outlook breakpoints target (elapsed + taken) := by
  obtain ⟨hbare, hskip⟩ := step_bare hstep
  rw [outlook, outlook, drive_of_ok hlt hbare, hskip]
  cases hs : s.cpu.skipBreakpoint with
  | true => rfl
  | false =>
    have hclear : breakpoints.isHit s.cpu.regs.pc = false := by simpa [hs] using hmiss
    have hnot : ¬stopsAt breakpoints s.bare = true := by
      change ¬breakpoints.isHit s.cpu.regs.pc = true
      rw [hclear]
      decide
    simp only [Bool.false_eq_true, if_false]
    rw [List.filter_cons_of_neg hnot]

theorem result_outlook_of_error {e : CpuError} (hlt : elapsed < target)
    (hstep : Exec.step (s.setSkip false) = (.error e, t)) :
    (s.outlook breakpoints target elapsed).result = .error e := by
  rw [outlook, drive_of_error hlt (step_bare hstep).1]

/-- At a breakpoint, stepping over it is ahead without the state itself. -/
theorem outlook_of_hit (hlt : elapsed < target) (hskip : s.cpu.skipBreakpoint = false)
    (hhit : breakpoints.isHit s.cpu.regs.pc = true) :
    s.outlook breakpoints target elapsed =
      { (s.setSkip true).outlook breakpoints target elapsed with
        visited := s.bare :: ((s.setSkip true).outlook breakpoints target elapsed).visited } := by
  have hpc : stopsAt breakpoints s.bare = true := hhit
  rw [outlook, outlook, hskip, if_neg (by decide), visited_drive hlt, List.filter_cons_of_pos hpc]
  rfl

variable {base : Nat}

/-- A frame that is completed leaves what is ahead as it was. -/
theorem outlook_of_complete (h : runFrameFrom breakpoints elapsed s = (.ok none, t))
    (htarget : base + cyclesPerFrame ≤ target) :
    s.outlook breakpoints target (base + elapsed) =
      t.outlook breakpoints target (base + cyclesPerFrame + t.cpu.frameCycles) := by
  fun_induction runFrameFrom breakpoints elapsed s with
  | case1 elapsed s hlt pc hhit => cases h
  | case2 elapsed s hlt pc hmiss taken u hstep ih =>
    rw [outlook_of_step (by omega) (by simpa using hmiss) hstep, Nat.add_assoc, ih h]
  | case3 elapsed s hlt pc hmiss e u hstep => cases h
  | case4 elapsed s hle =>
    obtain ⟨-, rfl⟩ := Prod.mk.inj h
    have hcycles : base + cyclesPerFrame + (elapsed - cyclesPerFrame) = base + elapsed := by omega
    rw [outlook_setFrameCycles, frameCycles_setFrameCycles, hcycles]

/-- A frame that stops at a breakpoint leaves what is ahead as it was. -/
theorem outlook_of_breakpoint {pc : UInt16}
    (h : runFrameFrom breakpoints elapsed s = (.ok (some pc), t))
    (htarget : base + cyclesPerFrame ≤ target) :
    s.outlook breakpoints target (base + elapsed) =
      t.outlook breakpoints target (base + t.cpu.frameCycles) := by
  fun_induction runFrameFrom breakpoints elapsed s with
  | case1 elapsed s hlt pc hhit =>
    obtain ⟨-, rfl⟩ := Prod.mk.inj h
    rfl
  | case2 elapsed s hlt pc hmiss taken u hstep ih =>
    rw [outlook_of_step (by omega) (by simpa using hmiss) hstep, Nat.add_assoc, ih h]
  | case3 elapsed s hlt pc hmiss e u hstep => cases h
  | case4 elapsed s hle => cases h

/-- A frame fails only if the run ahead does. -/
theorem outlook_of_failure {e : CpuError}
    (h : runFrameFrom breakpoints elapsed s = (.error e, t))
    (htarget : base + cyclesPerFrame ≤ target) :
    (s.outlook breakpoints target (base + elapsed)).result = .error e := by
  fun_induction runFrameFrom breakpoints elapsed s with
  | case1 elapsed s hlt pc hhit => cases h
  | case2 elapsed s hlt pc hmiss taken u hstep ih =>
    rw [outlook_of_step (by omega) (by simpa using hmiss) hstep, Nat.add_assoc, ih h]
  | case3 elapsed s hlt pc hmiss e' u hstep =>
    obtain ⟨he, -⟩ := Prod.mk.inj h
    rw [result_outlook_of_error (by omega) hstep, Except.error.inj he]
  | case4 elapsed s hle => cases h

/-- Where a frame stops at a breakpoint. -/
theorem stop_of_breakpoint {pc : UInt16}
    (h : runFrameFrom breakpoints elapsed s = (.ok (some pc), t)) :
    t.cpu.regs.pc = pc ∧ breakpoints.isHit pc = true ∧ t.cpu.skipBreakpoint = false ∧
      t.cpu.frameCycles < cyclesPerFrame := by
  fun_induction runFrameFrom breakpoints elapsed s with
  | case1 elapsed s hlt pc hhit =>
    obtain ⟨hpc, rfl⟩ := Prod.mk.inj h
    obtain rfl := Option.some.inj (Except.ok.inj hpc)
    obtain ⟨hskip, hhit⟩ : s.cpu.skipBreakpoint = false ∧ breakpoints.isHit pc = true := by
      simpa using hhit
    exact ⟨rfl, hhit, hskip, hlt⟩
  | case2 elapsed s hlt pc hmiss taken u hstep ih => exact ih h
  | case3 elapsed s hlt pc hmiss e u hstep => cases h
  | case4 elapsed s hle => cases h

/-- Whatever ends a frame, no breakpoint is left to be stepped over. -/
theorem skip_of_frame (hskip : s.cpu.skipBreakpoint = true → elapsed < cyclesPerFrame) :
    (runFrameFrom breakpoints elapsed s).2.cpu.skipBreakpoint = false := by
  fun_induction runFrameFrom breakpoints elapsed s with
  | case1 elapsed s hlt pc hhit =>
    rw [skip_setFrameCycles]
    simp only [Bool.and_eq_true, Bool.not_eq_true'] at hhit
    exact hhit.1
  | case2 elapsed s hlt pc hmiss taken t hstep ih =>
    refine ih fun ht => ?_
    rw [(step_bare hstep).2] at ht
    cases ht
  | case3 elapsed s hlt pc hmiss e t hstep => exact (step_bare hstep).2
  | case4 elapsed s hle =>
    rw [skip_setFrameCycles]
    cases hs : s.cpu.skipBreakpoint with
    | true => exact absurd (hskip hs) hle
    | false => rfl

/-- A completed frame has stepped over the breakpoint that it was to step over. -/
theorem skip_of_complete (h : runFrameFrom breakpoints elapsed s = (.ok none, t))
    (hskip : s.cpu.skipBreakpoint = true → elapsed < cyclesPerFrame) :
    t.cpu.skipBreakpoint = false := by
  have hframe : (runFrameFrom breakpoints elapsed s).2.cpu.skipBreakpoint = false :=
    skip_of_frame hskip
  rwa [h] at hframe

end Core

end Handheld
