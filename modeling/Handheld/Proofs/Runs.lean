import Handheld.Proofs.Link
import Mathlib.Algebra.Ring.Nat

/-!
Runs of a session in a row. In whatever portions the frames are asked for, and whatever the
breakpoints, they lead to the machine of one run of all the frames without breakpoints, and
the stops of a run are the states of the undisturbed one that are at breakpoints.
-/
namespace Handheld

namespace Session

/-- Runs in a row, up to one that fails. -/
def runAll : List (Nat × Bool) → Session → Except SessionError (List Summary) × Session
  | [], s => (.ok [], s)
  | (frames, stopOnBreak) :: rest, s =>
    match s.run frames stopOnBreak with
    | (.error e, s) => (.error e, s)
    | (.ok summary, s) =>
      let (result, s) := runAll rest s
      (result.map (summary :: ·), s)

/-- The session with the breakpoints of its console removed. -/
def withoutBreakpoints (s : Session) : Session :=
  { s with console := s.console.withoutBreakpoints }

/-- The run of a number of frames that nothing interrupts. -/
def undisturbed (frames : Nat) (s : Session) : Drive Lcd Sound :=
  s.console.core.drive (frames * cyclesPerFrame) s.console.core.cpu.frameCycles

theorem run_eq_ok {frames : Nat} {stopOnBreak : Bool} {s s' : Session} {summary : Summary}
    (h : s.run frames stopOnBreak = (.ok summary, s')) :
    s.console.run frames stopOnBreak = (.ok summary, s'.console) ∧ s'.savePath = s.savePath := by
  cases hrun : s.console.run frames stopOnBreak with
  | mk result console =>
    rw [run, hrun] at h
    cases result with
    | error e => cases h
    | ok found =>
      obtain ⟨hfound, rfl⟩ := Prod.mk.inj h
      exact ⟨by rw [Except.ok.inj hfound], rfl⟩

theorem runAll_singleton {frames : Nat} {stopOnBreak : Bool} {s s' : Session} {summary : Summary}
    (h : s.run frames stopOnBreak = (.ok summary, s')) :
    s.runAll [(frames, stopOnBreak)] = (.ok [summary], s') := by
  rw [runAll, h]
  rfl

theorem runAll_cons_eq_ok {frames : Nat} {stopOnBreak : Bool} {rest : List (Nat × Bool)}
    {s s' : Session} {summaries : List Summary}
    (h : s.runAll ((frames, stopOnBreak) :: rest) = (.ok summaries, s')) :
    ∃ summary between following, s.run frames stopOnBreak = (.ok summary, between) ∧
      between.runAll rest = (.ok following, s') ∧ summaries = summary :: following := by
  rw [runAll] at h
  cases hrun : s.run frames stopOnBreak with
  | mk result between =>
    rw [hrun] at h
    cases result with
    | error e => cases h
    | ok summary =>
      cases hrest : between.runAll rest with
      | mk outcome last =>
        simp only [hrest] at h
        obtain ⟨hmap, rfl⟩ := Prod.mk.inj h
        cases outcome with
        | error e => cases hmap
        | ok following =>
          exact ⟨summary, between, following, rfl, by rw [hrest], (Except.ok.inj hmap).symm⟩

open Console

/-- Runs in a row lead on as far as their frames together. -/
theorem link_runAll {runs : List (Nat × Bool)} {s s' : Session} {summaries : List Summary}
    (h : s.runAll runs = (.ok summaries, s')) (htidy : s.console.Tidy)
    (hskip : s.console.core.cpu.skipBreakpoint = false) :
    Link 0 s.console (summaries.map (·.frames)).sum s'.console ∧ s'.savePath = s.savePath ∧
      s'.console.core.cpu.skipBreakpoint = false := by
  induction runs generalizing s summaries with
  | nil =>
    obtain ⟨hsummaries, rfl⟩ := Prod.mk.inj h
    obtain rfl := Except.ok.inj hsummaries
    exact ⟨.refl _ _, rfl, hskip⟩
  | cons run rest ih =>
    obtain ⟨summary, between, following, hrun, hrest, rfl⟩ := runAll_cons_eq_ok h
    obtain ⟨hfirst, hpath⟩ := run_eq_ok hrun
    have hlink : Link 0 s.console summary.frames between.console := link_runFrom hfirst
    have hbetween : between.console.core.cpu.skipBreakpoint = false :=
      skip_runFrom hfirst htidy fun hs => by rw [hskip] at hs; cases hs
    obtain ⟨hfollowing, hpath', hskip'⟩ := ih hrest (hlink.tidy htidy) hbetween
    refine ⟨?_, hpath'.trans hpath, hskip'⟩
    exact hlink.trans (hfollowing.shift summary.frames)

theorem run_of_console {frames : Nat} {stopOnBreak : Bool} {s : Session} {c : Console}
    {summary : Summary} (h : s.console.run frames stopOnBreak = (.ok summary, c)) :
    s.run frames stopOnBreak = (.ok summary, { s with console := c }) := by
  rw [run, h]
  rfl

/-- The note of a stop does not tell what the frames keep. -/
theorem hitAt_retag (f : Nat) (skip : Bool) :
    hitAt ∘ Core.retag f skip = hitAt := rfl

theorem stopsAt_retag (breakpoints : Breakpoints) (f : Nat) (skip : Bool) :
    Core.stopsAt breakpoints ∘ Core.retag (V := Lcd) (A := Sound) f skip =
      Core.stopsAt breakpoints := rfl

/-- The stops of a run that leaves every breakpoint again. -/
theorem hits_run {frames : Nat} {s s' : Session} {summary : Summary}
    (h : s.run frames false = (.ok summary, s')) (hpaused : s.console.pausedAt = none)
    (hskip : s.console.core.cpu.skipBreakpoint = false) :
    summary.hits.toList =
      ((s.undisturbed frames).visited.filter (Core.stopsAt s.console.breakpoints)).map hitAt := by
  have hhits := hits_of_runFrom (run_eq_ok h).1 hpaused rfl
  have hstart : (Summary.start).frames * cyclesPerFrame + s.console.core.cpu.frameCycles =
      s.console.core.cpu.frameCycles := by simp [Summary.start]
  have hempty : (Summary.start).hits.toList = [] := rfl
  rw [hhits, hempty, List.nil_append, outlook, Core.outlook, hskip, hstart, Core.bare,
    Core.drive_retag]
  simp only [Bool.false_eq_true, if_false]
  rw [List.filter_map, List.map_map, hitAt_retag, stopsAt_retag, undisturbed]

/-- Breakpoints and the portions in which frames are asked for are unobservable: runs in a
row that end not paused leave the machine of one run of all their frames without
breakpoints. A run that leaves every breakpoint again notes exactly the states of the
undisturbed run, within its frames, whose program counter is at an enabled breakpoint. -/
theorem breakpoints_unobservable {s : Session} (hpaused : s.console.paused = false)
    (hskip : s.console.core.cpu.skipBreakpoint = false)
    (hreachable : s.console.breakpoints.Reachable) :
    (∀ (runs : List (Nat × Bool)) (summaries : List Summary) (s' : Session),
      s.runAll runs = (.ok summaries, s') → s'.console.paused = false →
      s.withoutBreakpoints.run (summaries.map (·.frames)).sum false =
        (.ok ⟨(summaries.map (·.frames)).sum, #[], false⟩, s'.withoutBreakpoints)) ∧
    ∀ (frames : Nat) (summary : Summary) (s' : Session),
      s.run frames false = (.ok summary, s') →
      summary.hits.toList =
        ((s.undisturbed frames).visited.filter
          fun t => s.console.breakpoints.isEnabledAt t.cpu.regs.pc).map
          fun t => ⟨t.cpu.regs.pc, t.cpu.debugText⟩ := by
  have hnone : s.console.pausedAt = none := by simpa [paused] using hpaused
  constructor
  · intro runs summaries s' h hend
    have hendNone : s'.console.pausedAt = none := by simpa [paused] using hend
    obtain ⟨hlink, hpath, hskip'⟩ := link_runAll h (tidy_of_settled hnone hskip) hskip
    have hrun := run_withoutBreakpoints hlink hnone hskip hendNone hskip'
    have hsession : s'.withoutBreakpoints = ⟨s'.console.withoutBreakpoints, s.savePath⟩ := by
      rw [withoutBreakpoints, hpath]
    rw [hsession]
    exact run_of_console hrun
  · intro frames summary s' h
    have hstops : Core.stopsAt s.console.breakpoints =
        fun t : Core Lcd Sound => s.console.breakpoints.isEnabledAt t.cpu.regs.pc := by
      funext t
      exact hreachable.isHit_eq t.cpu.regs.pc
    rw [hits_run h hnone hskip, hstops]
    rfl

/-- A console without a cartridge, two instructions before the end of a frame and one before
a breakpoint. -/
def nearBreakpoint : Session where
  console :=
    { Console.powerOn .emulated with
      core := (Core.powerOn none).setFrameCycles 69900
      breakpoints := (Breakpoints.empty.add 0x0101).1 }
  savePath := none

/-- The stop at the breakpoint. -/
def nearBreakpointStop : Core Lcd Sound :=
  (nearBreakpoint.console.core.runFrame nearBreakpoint.console.breakpoints).2

/-- The end of the frame. -/
def nearBreakpointEnd : Core Lcd Sound :=
  ((nearBreakpointStop.setSkip true).runFrame nearBreakpoint.console.breakpoints).2

/-- The session after a run of that one frame. -/
def nearBreakpointAfter : Session :=
  { nearBreakpoint with console := { nearBreakpoint.console with core := nearBreakpointEnd } }

theorem run_nearBreakpoint :
    nearBreakpoint.run 1 false =
      (.ok ⟨1, #[⟨0x0101, nearBreakpointStop.cpu.debugText⟩], false⟩,
        nearBreakpointAfter) := by
  have hstop : (nearBreakpoint.console.core.runFrame nearBreakpoint.console.breakpoints).1 =
      .ok (some 0x0101) := by decide +kernel
  have hend : ((nearBreakpointStop.setSkip true).runFrame nearBreakpoint.console.breakpoints).1 =
      .ok none := by decide +kernel
  have hfirst : turn false .start nearBreakpoint.console =
      (.ok ⟨0, #[⟨0x0101, nearBreakpointStop.cpu.debugText⟩], false⟩,
        { nearBreakpoint.console with core := nearBreakpointStop.setSkip true }) := by
    have hrun : nearBreakpoint.console.core.runFrame nearBreakpoint.console.breakpoints =
        (.ok (some 0x0101), nearBreakpointStop) := Prod.ext hstop rfl
    have hpaused : nearBreakpoint.console.pausedAt = none := rfl
    simp only [turn, runFrame, hpaused, hrun]
    rfl
  have hnext : turn false ⟨0, #[⟨0x0101, nearBreakpointStop.cpu.debugText⟩], false⟩
      { nearBreakpoint.console with core := nearBreakpointStop.setSkip true } =
      (.ok ⟨1, #[⟨0x0101, nearBreakpointStop.cpu.debugText⟩], false⟩,
        { nearBreakpoint.console with core := nearBreakpointEnd }) := by
    have hrun : (nearBreakpointStop.setSkip true).runFrame nearBreakpoint.console.breakpoints =
        (.ok none, nearBreakpointEnd) := Prod.ext hend rfl
    have hpaused : nearBreakpoint.console.pausedAt = none := rfl
    simp only [turn, runFrame, hpaused, hrun]
  apply run_of_console
  rw [Console.run, runFrom_of_turn rfl hfirst, runFrom_of_turn rfl hnext,
    runFrom_of_isOver rfl]

theorem breakpoints_unobservable_nearBreakpoint :
    nearBreakpoint.withoutBreakpoints.run 1 false =
      (.ok ⟨1, #[], false⟩, nearBreakpointAfter.withoutBreakpoints) ∧
    [⟨0x0101, nearBreakpointStop.cpu.debugText⟩] =
      ((nearBreakpoint.undisturbed 1).visited.filter
        fun t => nearBreakpoint.console.breakpoints.isEnabledAt t.cpu.regs.pc).map
        fun t => (⟨t.cpu.regs.pc, t.cpu.debugText⟩ : Hit) := by
  have hreachable : nearBreakpoint.console.breakpoints.Reachable := .add .empty 0x0101
  have hrun := run_nearBreakpoint
  have hruns := runAll_singleton hrun
  obtain ⟨hsame, hhits⟩ := breakpoints_unobservable (s := nearBreakpoint) rfl rfl hreachable
  exact ⟨hsame _ _ _ hruns rfl, hhits _ _ _ hrun⟩

end Session

end Handheld
