import Handheld.Proofs.Link
import Handheld.Proofs.StepOver

/-!
From one stop at a breakpoint to the next one there. The end of the pause excuses one step and
not one instruction. A machine that was running at the stop spends it on the instruction at the
breakpoint. A halted one spends it on an idle cycle and stops again, although the instruction has
not run.
-/
namespace Handheld

namespace Event

/-- Whether an instruction runs. -/
def isRun : Event → Bool
  | ran _ => true
  | _ => false

end Event

namespace Core

variable {V A : Type} [VideoUnit V] [AudioUnit A]

/-- Whether a step from this state runs the instruction at an address. -/
def runsAt (pc : UInt16) (s : Core V A) : Bool := s.cpu.regs.pc == pc && s.event.isRun

/-- An instruction runs unless the processor is halted or the opcode is an unused one. -/
theorem isRun_event (s : Core V A) :
    s.event.isRun = (!s.cpu.halted && (Instruction.decode s.opcode).isSome) := by
  rw [event]
  cases s.cpu.halted with
  | true => rfl
  | false =>
    cases Instruction.decode s.opcode with
    | none => rfl
    | some i => rfl

theorem runsAt_of_ne {pc : UInt16} {s : Core V A} (h : s.cpu.regs.pc ≠ pc) :
    s.runsAt pc = false := by
  rw [runsAt, beq_eq_false_iff_ne.mpr h, Bool.false_and]

variable {breakpoints : Breakpoints} {elapsed : Nat} {s : Core V A}

/-- Where there is no breakpoint, the instruction at one does not run. -/
theorem runsAt_of_isHit {pc : UInt16} (hhit : breakpoints.isHit pc = true)
    (hmiss : breakpoints.isHit s.cpu.regs.pc = false) : s.runsAt pc = false := by
  refine runsAt_of_ne ?_
  rintro rfl
  rw [hhit] at hmiss
  cases hmiss

theorem taken?_retag (f : Nat) (skip : Bool) (s : Core V A) :
    (s.retag f skip).taken? = s.taken? := by
  have hevent : (s.retag f skip).event = s.event := rfl
  rw [taken?, taken?, hevent, after_retag]
  rfl

/-- A halted step without an interrupt is one idle cycle. -/
theorem step_of_halted (hhalted : s.cpu.halted = true) (hquiet : s.taken? = none) :
    Exec.step s = (.ok machineCycle, s.next) ∧ s.next.cpu.regs = s.cpu.regs := by
  have hevent : s.event = .idle := event_of_halted hhalted
  have hrun : s.event ≠ .failed := by rw [hevent]; exact Event.noConfusion
  rw [taken?, if_neg hrun, hevent] at hquiet
  have hanswered : (s.after s.event).answered = (s.after .idle).woken := by
    rw [hevent, answered, hquiet]
  have hcost : s.cost = machineCycle := by
    rw [cost, hanswered]
    exact Nat.add_sub_cancel_left _ _
  constructor
  · rw [step_eq, outcome, if_neg hrun, hcost]
  · rw [next, if_neg hrun, hanswered]
    rfl

/-- The step that is excused leaves a halted machine where it was. -/
theorem frame_of_halted (hhalted : s.cpu.halted = true) (hquiet : s.taken? = none)
    (hhit : breakpoints.isHit s.cpu.regs.pc = true)
    (hlt : elapsed + machineCycle < cyclesPerFrame) :
    ((s.setSkip true).runFrameFrom breakpoints elapsed).1 = .ok (some s.cpu.regs.pc) ∧
      (s.setSkip true).frameSteps breakpoints elapsed = [s.setSkip true] := by
  have hin : elapsed < cyclesPerFrame := Nat.lt_of_le_of_lt (Nat.le_add_right _ _) hlt
  have hquiet' : ((s.setSkip true).setSkip false).taken? = none :=
    (taken?_retag s.cpu.frameCycles false s).trans hquiet
  obtain ⟨hstep, hregs⟩ := step_of_halted (s := (s.setSkip true).setSkip false) hhalted hquiet'
  obtain ⟨-, hskip⟩ := step_bare hstep
  have hexcused : ¬(!(s.setSkip true).cpu.skipBreakpoint &&
      breakpoints.isHit (s.setSkip true).cpu.regs.pc) = true := Bool.false_ne_true
  have hstops : (!((s.setSkip true).setSkip false).next.cpu.skipBreakpoint &&
      breakpoints.isHit ((s.setSkip true).setSkip false).next.cpu.regs.pc) = true := by
    rw [hskip, hregs]
    exact hhit
  constructor
  · rw [runFrameFrom, if_pos hin, if_neg hexcused, hstep]
    dsimp only
    rw [runFrameFrom_of_hit hlt hstops, hregs]
    rfl
  · rw [frameSteps_of_step hin hexcused hstep, frameSteps, if_pos hlt, if_pos hstops]

end Core

namespace Console

/-- Frames that do not report a breakpoint and ends of pauses lead from one console to another,
with the states from which steps are taken. -/
inductive GoesOn (pc : UInt16) (c : Console) : List (Core Lcd Sound) → Console → Prop
  | start : GoesOn pc c [] c
  | frame {steps : List (Core Lcd Sound)} {d : Console} (h : GoesOn pc c steps d)
      (hother : d.runFrame.1 ≠ .ok (.breakpoint pc)) :
      GoesOn pc c (steps ++ d.frameSteps) d.runFrame.2
  | resume {steps : List (Core Lcd Sound)} {d : Console} (h : GoesOn pc c steps d) :
      GoesOn pc c steps d.resume

/-- A console that the next step takes away from a breakpoint. -/
structure Leaving (pc : UInt16) (c : Console) : Prop where
  pausedAt_eq : c.pausedAt = none
  skip_eq : c.core.cpu.skipBreakpoint = true
  pc_eq : c.core.cpu.regs.pc = pc
  isHit_eq : c.breakpoints.isHit pc = true
  frameCycles_lt : c.core.cpu.frameCycles < cyclesPerFrame

/-- A console that will not pass a breakpoint without a stop. -/
structure Past (pc : UInt16) (c : Console) : Prop where
  isHit_eq : c.breakpoints.isHit pc = true
  frameCycles_lt : c.core.cpu.frameCycles < cyclesPerFrame
  /-- A pause, and what its end excuses, belong to another breakpoint. -/
  elsewhere : c.isHalfway = true → c.core.cpu.regs.pc ≠ pc

variable {pc : UInt16} {c d : Console}

theorem resume_of_paused (h : c.pausedAt = some pc) :
    c.resume = { c with core := c.core.setSkip true, pausedAt := none } := by
  rw [resume, h]

theorem outcome_of_stop (hpaused : c.pausedAt = none)
    (h : (c.core.runFrame c.breakpoints).1 = .ok (some pc)) :
    c.runFrame.1 = .ok (.breakpoint pc) := by
  cases hrun : c.core.runFrame c.breakpoints with
  | mk result core =>
    rw [hrun] at h
    obtain rfl : result = .ok (some pc) := h
    simp only [runFrame, hpaused, hrun]

theorem pausedAt_of_stop (h : c.runFrame = (.ok (.breakpoint pc), d)) :
    d.pausedAt = some pc := by
  obtain ⟨pc', -, heq⟩ | ⟨-, core, ⟨e, -, heq⟩ | ⟨-, heq⟩ | ⟨pc', -, heq⟩⟩ := runFrame_cases c
  all_goals
    rw [heq] at h
    cases h
  rfl

/-- The end of the pause at a breakpoint. -/
theorem leaving_of_stop (h : c.runFrame = (.ok (.breakpoint pc), d)) : Leaving pc d.resume := by
  obtain ⟨hrun, hkept⟩ := eq_of_breakpoint h
  obtain ⟨hpc, hhit, -, hlt⟩ := Core.stop_of_breakpoint hrun
  rw [resume_of_paused (pausedAt_of_stop h)]
  exact ⟨rfl, rfl, hpc, hkept ▸ hhit, hlt⟩

theorem Leaving.resume_eq (h : Leaving pc c) : c.resume = c := resume_eq_self h.pausedAt_eq

theorem Leaving.isHalfway (h : Leaving pc c) : c.isHalfway = true := by
  rw [Console.isHalfway, h.skip_eq, Bool.or_true]

/-- The first step begins at the breakpoint and no other step of the frame does. -/
theorem Leaving.countP_frameSteps (h : Leaving pc c) :
    c.frameSteps.countP (·.runsAt pc) = c.core.event.isRun.toNat := by
  rw [frameSteps_of_not_paused h.pausedAt_eq]
  have hgoes : (!c.core.cpu.skipBreakpoint && c.breakpoints.isHit c.core.cpu.regs.pc) = false := by
    rw [h.skip_eq]
    rfl
  obtain ⟨rest, hsteps⟩ := Core.exists_frameSteps h.frameCycles_lt hgoes
  have hrest : rest.countP (·.runsAt pc) = 0 := by
    rw [List.countP_eq_zero]
    intro s hs
    have hmiss := (Core.frameSteps_eq_cons hsteps).2 s hs
    rw [Core.runsAt_of_isHit h.isHit_eq hmiss]
    exact Bool.false_ne_true
  rw [hsteps, List.countP_cons, hrest, Nat.zero_add, Core.runsAt, beq_iff_eq.mpr h.pc_eq,
    Bool.true_and]
  cases c.core.event.isRun <;> rfl

/-- A frame that reports another breakpoint, or none, has left the breakpoint behind. -/
theorem past_of_frame (hpaused : c.pausedAt = none)
    (hlt : c.core.cpu.frameCycles < cyclesPerFrame) (hhit : c.breakpoints.isHit pc = true)
    (hother : c.runFrame.1 ≠ .ok (.breakpoint pc)) : Past pc c.runFrame.2 := by
  have hskip : (c.core.runFrame c.breakpoints).2.cpu.skipBreakpoint = false :=
    Core.skip_of_frame fun _ => hlt
  have hleft : (c.core.runFrame c.breakpoints).2.cpu.frameCycles < cyclesPerFrame :=
    Core.frameCycles_of_frame (Nat.lt_add_right _ hlt)
  have hsettled {core : Core Lcd Sound} (h : core.cpu.skipBreakpoint = false) :
      ¬({ c with core := core } : Console).isHalfway = true := by
    simp [isHalfway, paused, hpaused, h]
  obtain ⟨pc', hpaused', -⟩ | ⟨-, core, ⟨e, hrun, heq⟩ | ⟨hrun, heq⟩ | ⟨pc', hrun, heq⟩⟩ :=
    runFrame_cases c
  · rw [hpaused] at hpaused'
    cases hpaused'
  · rw [hrun] at hskip hleft
    rw [heq]
    exact ⟨hhit, hleft, fun hhalfway => absurd hhalfway (hsettled hskip)⟩
  · rw [hrun] at hskip hleft
    rw [heq]
    exact ⟨hhit, hleft, fun hhalfway => absurd hhalfway (hsettled hskip)⟩
  · rw [hrun] at hleft
    rw [heq] at hother ⊢
    refine ⟨hhit, hleft, fun _ hpc => hother ?_⟩
    rw [← hpc, (Core.stop_of_breakpoint hrun).1]

theorem Past.resume (h : Past pc c) : Past pc c.resume := by
  cases hpaused : c.pausedAt with
  | none => rwa [resume_eq_self hpaused]
  | some pc' =>
    rw [resume_of_paused hpaused]
    refine ⟨h.isHit_eq, h.frameCycles_lt, fun _ => h.elsewhere ?_⟩
    rw [isHalfway, paused, hpaused]
    rfl

theorem Past.frame (h : Past pc c) (hother : c.runFrame.1 ≠ .ok (.breakpoint pc)) :
    Past pc c.runFrame.2 := by
  cases hpaused : c.pausedAt with
  | none => exact past_of_frame hpaused h.frameCycles_lt h.isHit_eq hother
  | some pc' =>
    rw [runFrame, hpaused]
    exact h

/-- No step of its frame begins at the breakpoint. -/
theorem Past.countP_frameSteps (h : Past pc c) : c.frameSteps.countP (·.runsAt pc) = 0 := by
  suffices hnever : ∀ s ∈ c.frameSteps, s.runsAt pc = false by
    rw [List.countP_eq_zero]
    intro s hs
    rw [hnever s hs]
    exact Bool.false_ne_true
  intro s hs
  cases hpaused : c.pausedAt with
  | some pc' =>
    rw [frameSteps, paused, hpaused] at hs
    cases hs
  | none =>
    rw [frameSteps_of_not_paused hpaused] at hs
    cases hskip : c.core.cpu.skipBreakpoint with
    | false => exact Core.runsAt_of_isHit h.isHit_eq (Core.isHit_of_mem_frameSteps hskip s hs)
    | true =>
      obtain ⟨first, rest, hsteps⟩ := List.exists_cons_of_ne_nil (List.ne_nil_of_mem hs)
      obtain ⟨hfirst, hrest⟩ := Core.frameSteps_eq_cons hsteps
      rcases List.mem_cons.mp (hsteps ▸ hs) with rfl | hlater
      · rw [hfirst]
        exact Core.runsAt_of_ne (h.elsewhere (by rw [isHalfway, hskip, Bool.or_true]))
      · exact Core.runsAt_of_isHit h.isHit_eq (hrest s hlater)

/-- On the way from the end of a pause, either nothing has happened or the excused step is over. -/
theorem GoesOn.past {steps : List (Core Lcd Sound)} (h : GoesOn pc c steps d)
    (hstart : Leaving pc c) :
    (steps = [] ∧ d = c) ∨
      (Past pc d ∧ steps.countP (·.runsAt pc) = c.core.event.isRun.toNat) := by
  induction h with
  | start => exact .inl ⟨rfl, rfl⟩
  | frame h hother ih =>
    right
    rcases ih with ⟨rfl, rfl⟩ | ⟨hpast, hcount⟩
    · exact ⟨past_of_frame hstart.pausedAt_eq hstart.frameCycles_lt hstart.isHit_eq hother,
        hstart.countP_frameSteps⟩
    · refine ⟨hpast.frame hother, ?_⟩
      rw [List.countP_append, hcount, hpast.countP_frameSteps, Nat.add_zero]
  | resume h ih =>
    rcases ih with ⟨rfl, rfl⟩ | ⟨hpast, hcount⟩
    · exact .inl ⟨rfl, hstart.resume_eq⟩
    · exact .inr ⟨hpast.resume, hcount⟩

/-- From the end of a pause to that of any frame before which the breakpoint is not reported, its
instruction runs once, but for a halted machine and an unused opcode. -/
theorem countP_after_stop (hstop : c.runFrame = (.ok (.breakpoint pc), d))
    {steps : List (Core Lcd Sound)} {e : Console} (hpath : GoesOn pc d.resume steps e) :
    (steps ++ e.frameSteps).countP (·.runsAt pc) =
      (!d.core.cpu.halted && (Instruction.decode d.core.opcode).isSome).toNat := by
  have hleaving := leaving_of_stop hstop
  have hevent : d.resume.core.event = d.core.event := by
    rw [resume_of_paused (pausedAt_of_stop hstop)]
    rfl
  rw [List.countP_append, ← Core.isRun_event, ← hevent]
  rcases hpath.past hleaving with ⟨rfl, rfl⟩ | ⟨hpast, hcount⟩
  · rw [List.countP_nil, Nat.zero_add, hleaving.countP_frameSteps]
  · rw [hcount, hpast.countP_frameSteps, Nat.add_zero]

/-- A halted machine that nothing wakes stops at the breakpoint again after one idle cycle. -/
theorem stops_again_of_halted (hstop : c.runFrame = (.ok (.breakpoint pc), d))
    (hhalted : d.core.cpu.halted = true) (hquiet : d.core.taken? = none)
    (hlt : d.core.cpu.frameCycles + 4 < cyclesPerFrame) :
    d.resume.runFrame.1 = .ok (.breakpoint pc) ∧ d.resume.frameSteps = [d.resume.core] := by
  have hleaving := leaving_of_stop hstop
  have hresumed : d.resume.core = d.core.setSkip true := by
    rw [resume_of_paused (pausedAt_of_stop hstop)]
  have hpc : d.core.cpu.regs.pc = pc := (Core.stop_of_breakpoint (eq_of_breakpoint hstop).1).1
  have hhit : d.resume.breakpoints.isHit d.core.cpu.regs.pc = true := hpc ▸ hleaving.isHit_eq
  obtain ⟨hframe, hsteps⟩ := Core.frame_of_halted hhalted hquiet hhit hlt
  have hwithin : (d.core.setSkip true).cpu.frameCycles = d.core.cpu.frameCycles := rfl
  rw [← hwithin, ← hresumed] at hframe hsteps
  constructor
  · exact hpc ▸ outcome_of_stop hleaving.pausedAt_eq hframe
  · rw [frameSteps_of_not_paused hleaving.pausedAt_eq]
    exact hsteps

/-- How often the instruction at a breakpoint runs from one stop there up to and with the frame
that makes the next one. If the machine was running at the stop, it runs once, so that each report
stands for one run of it, but for an unused opcode. If the machine was halted there, the
instruction does not run at all, and as long as no interrupt is taken nor the frame ends, the next
frame reports the breakpoint again after one idle cycle. -/
theorem runs_between_stops (hstop : c.runFrame = (.ok (.breakpoint pc), d)) :
    (∀ steps e, GoesOn pc d.resume steps e →
      (steps ++ e.frameSteps).countP (·.runsAt pc) =
        (!d.core.cpu.halted && (Instruction.decode d.core.opcode).isSome).toNat) ∧
    (d.core.cpu.halted = true → d.core.taken? = none →
      d.core.cpu.frameCycles + 4 < cyclesPerFrame →
      d.resume.runFrame.1 = .ok (.breakpoint pc) ∧ d.resume.frameSteps = [d.resume.core]) :=
  ⟨fun _ _ hpath => countP_after_stop hstop hpath, stops_again_of_halted hstop⟩

/-- A console with a program at the entry point and a breakpoint. -/
def marked (code : List UInt8) (addr : UInt16) : Console :=
  { (powerOn .emulated).insertRom ⟨(List.replicate 0x100 0 ++ code).toArray⟩ (.fixed 0) with
    breakpoints := (Breakpoints.empty.add addr).1 }

theorem logged_marked (code : List UInt8) (addr : UInt16) :
    Logged [.reset] (marked code addr) :=
  .breakpoints (.insert (.powerOn .emulated) _) (.add .empty addr)

/-- A loop of two instructions, with a breakpoint at the first. -/
def looping : Console := marked [0x00, 0x18, 0xFD] 0x0100

/-- A program that takes every request back and halts, with a breakpoint at what follows. -/
def halting : Console := marked [0xAF, 0xE0, 0x0F, 0x76, 0x00] 0x0104

theorem runFrame_looping : looping.runFrame = (.ok (.breakpoint 0x0100), looping.runFrame.2) := by
  have houtcome : looping.runFrame.1 = .ok (.breakpoint 0x0100) := by decide +kernel
  exact Prod.ext houtcome rfl

theorem runFrame_halting : halting.runFrame = (.ok (.breakpoint 0x0104), halting.runFrame.2) := by
  have houtcome : halting.runFrame.1 = .ok (.breakpoint 0x0104) := by decide +kernel
  exact Prod.ext houtcome rfl

/-- The halted machine stays at the breakpoint, and nothing wakes it. -/
theorem halted_halting :
    halting.runFrame.2.core.cpu.halted = true ∧ halting.runFrame.2.core.taken? = none ∧
      halting.runFrame.2.core.cpu.frameCycles + 4 < cyclesPerFrame := by
  decide +kernel

/-- The first instruction of the loop runs once between two stops, and the halted machine stops
again at once. -/
theorem runs_between_stops_looping :
    looping.runFrame.2.resume.runFrame.1 = .ok (.breakpoint 0x0100) ∧
      looping.runFrame.2.resume.frameSteps.countP (·.runsAt 0x0100) = 1 ∧
      halting.runFrame.2.resume.runFrame.1 = .ok (.breakpoint 0x0104) := by
  have hagain : looping.runFrame.2.resume.runFrame.1 = .ok (.breakpoint 0x0100) := by
    decide +kernel
  obtain ⟨hcount, -⟩ := runs_between_stops runFrame_looping
  have hruns : (!looping.runFrame.2.core.cpu.halted &&
      (Instruction.decode looping.runFrame.2.core.opcode).isSome) = true := by decide +kernel
  have honce := hcount [] _ .start
  rw [hruns] at honce
  obtain ⟨hhalted, hquiet, hlt⟩ := halted_halting
  obtain ⟨-, hidle⟩ := runs_between_stops runFrame_halting
  exact ⟨hagain, honce, (hidle hhalted hquiet hlt).1⟩

/-- A breakpoint may be reported again although its instruction has not run. -/
theorem not_run_between_stops :
    ¬∀ (log : List Note) (c d e f : Console) (pc : UInt16) (steps : List (Core Lcd Sound)),
      Logged log c → c.runFrame = (.ok (.breakpoint pc), d) → GoesOn pc d.resume steps e →
      e.runFrame = (.ok (.breakpoint pc), f) →
      ∃ s ∈ steps ++ e.frameSteps, s.runsAt pc = true := by
  intro hclaim
  obtain ⟨hhalted, hquiet, hlt⟩ := halted_halting
  obtain ⟨hagain, -⟩ := stops_again_of_halted runFrame_halting hhalted hquiet hlt
  have hagain : halting.runFrame.2.resume.runFrame =
      (.ok (.breakpoint 0x0104), halting.runFrame.2.resume.runFrame.2) := Prod.ext hagain rfl
  have hnever := countP_after_stop runFrame_halting .start
  rw [hhalted, Bool.not_true, Bool.false_and] at hnever
  obtain ⟨s, hs, hruns⟩ := hclaim _ _ _ _ _ _ [] (logged_marked _ _) runFrame_halting .start hagain
  exact List.countP_eq_zero.mp hnever s hs hruns

end Console

end Handheld
