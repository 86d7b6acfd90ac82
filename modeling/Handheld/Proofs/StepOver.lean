import Handheld.Proofs.Breakpoints
import Handheld.Proofs.FrameSteps

/-!
Stepping over a breakpoint. What is done to a console is noted, the newest first, as far as it
matters to breakpoints. A frame runs an instruction at an enabled breakpoint only as its first
one, and only if since the latest stop the pause was ended and nothing but the host's own steps
has run. Such steps do not use up the leave that the end of a pause gives, so that a frame may
pass another breakpoint than the one it had stopped at.
-/
namespace Handheld

namespace Console

/-- What is noted of a console, as far as it matters to breakpoints. -/
inductive Note
  /-- A frame has stopped at a breakpoint. -/
  | stop (pc : UInt16)
  /-- The host has asked for the end of a pause. -/
  | resume
  /-- A frame has taken a step, which began with an event. -/
  | frameStep (e : Event)
  /-- The host has taken a step. -/
  | step (e : Event)
  | reset
  deriving DecidableEq

/-- The states from which a frame that is asked for now takes a step. -/
def frameSteps (c : Console) : List (Core Lcd Sound) :=
  if c.paused then [] else c.core.frameSteps c.breakpoints c.core.cpu.frameCycles

def stopNotes : Except CpuError FrameOutcome → List Note
  | .ok (.breakpoint pc) => [.stop pc]
  | _ => []

/-- What is noted of a frame, the newest first. -/
def frameNotes (c : Console) : List Note :=
  stopNotes c.runFrame.1 ++ (c.frameSteps.map fun s => Note.frameStep s.event).reverse

/-- A console with the notes of what has been done to it since it was built. The breakpoints may
be replaced by any others that their operations lead to. -/
inductive Logged : List Note → Console → Prop
  | powerOn (mode : ClockMode) : Logged [] (.powerOn mode)
  | insert {log : List Note} {c : Console} (h : Logged log c) (cartridge : Cartridge) :
      Logged (.reset :: log) (c.insert cartridge)
  | reset {log : List Note} {c : Console} (h : Logged log c) : Logged (.reset :: log) c.reset
  | frame {log : List Note} {c : Console} (h : Logged log c) :
      Logged (c.frameNotes ++ log) c.runFrame.2
  | step {log : List Note} {c : Console} (h : Logged log c) :
      Logged (.step c.core.event :: log) c.step.2
  | resume {log : List Note} {c : Console} (h : Logged log c) : Logged (.resume :: log) c.resume
  | button {log : List Note} {c : Console} (h : Logged log c) (button : Button) (pressed : Bool) :
      Logged log (c.setButton button pressed)
  | breakpoints {log : List Note} {c : Console} (h : Logged log c) {bs : Breakpoints}
      (hbs : bs.Reachable) : Logged log { c with breakpoints := bs }

/-- What the latest stop still means. -/
inductive Standing
  | nothing
  | paused (pc : UInt16)
  /-- The instruction that comes next in a frame runs whatever the breakpoints. -/
  | excused (pc : UInt16)

namespace Standing

def pausedAt? : Standing → Option UInt16
  | paused pc => some pc
  | _ => none

def isExcused : Standing → Bool
  | excused _ => true
  | _ => false

def resume : Standing → Standing
  | paused pc => excused pc
  | other => other

theorem resume_eq_self {s : Standing} (h : s.pausedAt? = none) : s.resume = s := by
  cases s with
  | nothing => rfl
  | paused pc => cases h
  | excused pc => rfl

theorem eq_paused {s : Standing} {pc : UInt16} (h : s.pausedAt? = some pc) : s = paused pc := by
  cases s with
  | nothing => cases h
  | paused pc' => rw [Option.some.inj h]
  | excused pc' => cases h

theorem exists_eq_excused {s : Standing} (h : s.isExcused = true) : ∃ pc, s = excused pc := by
  cases s with
  | nothing => cases h
  | paused pc => cases h
  | excused pc => exact ⟨pc, rfl⟩

end Standing

/-- What the notes leave of the latest stop. -/
def standing : List Note → Standing
  | [] => .nothing
  | .stop pc :: _ => .paused pc
  | .resume :: log => (standing log).resume
  | .step _ :: log => standing log
  | .frameStep _ :: _ => .nothing
  | .reset :: _ => .nothing

/-- The breakpoint at which the program counter still is, because the host has not stepped. -/
def unmoved? : List Note → Option UInt16
  | .stop pc :: _ => some pc
  | .resume :: log => unmoved? log
  | _ => none

/-- The latest stop was at `pc`, and `since` then a pause was ended and nothing has run but steps
of the host. -/
def Excused (log since : List Note) (pc : UInt16) : Prop :=
  (∃ earlier, log = since ++ .stop pc :: earlier) ∧ .resume ∈ since ∧
    ∀ n ∈ since, n = .resume ∨ ∃ e, n = .step e

theorem standing_of_since {since : List Note} (h : ∀ n ∈ since, n = .resume ∨ ∃ e, n = .step e)
    (pc : UInt16) (earlier : List Note) :
    standing (since ++ .stop pc :: earlier) =
      if .resume ∈ since then .excused pc else .paused pc := by
  induction since with
  | nil => rfl
  | cons n rest ih =>
    have hrest := ih fun m hm => h m (List.mem_cons_of_mem n hm)
    rcases h n List.mem_cons_self with rfl | ⟨e, rfl⟩
    · rw [List.cons_append, standing, hrest, if_pos List.mem_cons_self]
      split <;> rfl
    · simp only [List.cons_append, standing, hrest, List.mem_cons, reduceCtorEq, false_or]

theorem standing_eq_paused {log : List Note} {pc : UInt16} (h : standing log = .paused pc) :
    ∃ since earlier, log = since ++ .stop pc :: earlier ∧ ∀ n ∈ since, ∃ e, n = .step e := by
  induction log with
  | nil => cases h
  | cons n log ih =>
    cases n with
    | stop pc' =>
      cases h
      exact ⟨[], log, rfl, by simp⟩
    | resume =>
      rw [standing] at h
      cases hlog : standing log <;> rw [hlog] at h <;> cases h
    | frameStep e => cases h
    | step e =>
      obtain ⟨since, earlier, rfl, hsteps⟩ := ih h
      exact ⟨.step e :: since, earlier, rfl, by simpa using hsteps⟩
    | reset => cases h

/-- Ending a pause again and steps of the host take no leave back. -/
theorem Excused.cons {log since : List Note} {pc : UInt16} (h : Excused log since pc) {n : Note}
    (hn : n = .resume ∨ ∃ e, n = .step e) : Excused (n :: log) (n :: since) pc := by
  obtain ⟨⟨earlier, rfl⟩, hresume, hminor⟩ := h
  exact ⟨⟨earlier, rfl⟩, List.mem_cons_of_mem n hresume, List.forall_mem_cons.mpr ⟨hn, hminor⟩⟩

theorem exists_excused {log : List Note} {pc : UInt16} (h : standing log = .excused pc) :
    ∃ since, Excused log since pc := by
  induction log with
  | nil => cases h
  | cons n log ih =>
    cases n with
    | stop pc' => cases h
    | resume =>
      rw [standing] at h
      cases hlog : standing log with
      | nothing =>
        rw [hlog] at h
        cases h
      | paused pc' =>
        -- The pause ends here for the first time since the stop.
        rw [hlog] at h
        cases h
        obtain ⟨since, earlier, rfl, hsteps⟩ := standing_eq_paused hlog
        exact ⟨.resume :: since, ⟨earlier, rfl⟩, List.mem_cons_self,
          List.forall_mem_cons.mpr ⟨.inl rfl, fun m hm => .inr (hsteps m hm)⟩⟩
      | excused pc' =>
        rw [hlog] at h
        cases h
        obtain ⟨since, hsince⟩ := ih hlog
        exact ⟨.resume :: since, hsince.cons (.inl rfl)⟩
    | frameStep e => cases h
    | step e =>
      obtain ⟨since, hsince⟩ := ih h
      exact ⟨.step e :: since, hsince.cons (.inr ⟨e, rfl⟩)⟩
    | reset => cases h

theorem Excused.standing_eq {log since : List Note} {pc : UInt16} (h : Excused log since pc) :
    standing log = .excused pc := by
  obtain ⟨⟨earlier, rfl⟩, hresume, hminor⟩ := h
  rw [standing_of_since hminor, if_pos hresume]

theorem Excused.unmoved {log since : List Note} {pc : UInt16} (h : Excused log since pc)
    (hsteps : ∀ e, .step e ∉ since) : unmoved? log = some pc := by
  obtain ⟨⟨earlier, rfl⟩, -, hminor⟩ := h
  induction since with
  | nil => rfl
  | cons n rest ih =>
    rcases hminor n List.mem_cons_self with rfl | ⟨e, rfl⟩
    · exact ih (fun e he => hsteps e (List.mem_cons_of_mem _ he))
        fun m hm => hminor m (List.mem_cons_of_mem _ hm)
    · exact absurd List.mem_cons_self (hsteps e)

/-- The notes tell the truth about a console. -/
structure Agrees (log : List Note) (c : Console) : Prop where
  breakpoints : c.breakpoints.Reachable
  pausedAt_eq : c.pausedAt = (standing log).pausedAt?
  skip_eq : c.core.cpu.skipBreakpoint = (standing log).isExcused
  frameCycles_lt : c.core.cpu.frameCycles < cyclesPerFrame
  pc_eq : ∀ pc, unmoved? log = some pc → c.core.cpu.regs.pc = pc

variable {log : List Note} {c : Console}

theorem resume_eq_self (h : c.pausedAt = none) : c.resume = c := by
  rw [Console.resume, h]

theorem Agrees.resume (h : Agrees log c) : Agrees (.resume :: log) c.resume := by
  cases hpaused : c.pausedAt with
  | none =>
    have hkept : (standing log).resume = standing log :=
      Standing.resume_eq_self (h.pausedAt_eq.symm.trans hpaused)
    rw [resume_eq_self hpaused]
    refine ⟨h.breakpoints, ?_, ?_, h.frameCycles_lt, h.pc_eq⟩
    · rw [standing, hkept]
      exact h.pausedAt_eq
    · rw [standing, hkept]
      exact h.skip_eq
  | some pc =>
    have hstanding : standing log = .paused pc :=
      Standing.eq_paused (h.pausedAt_eq.symm.trans hpaused)
    rw [Console.resume, hpaused]
    refine ⟨h.breakpoints, ?_, ?_, h.frameCycles_lt, h.pc_eq⟩
    · rw [standing, hstanding]
      rfl
    · rw [standing, hstanding]
      rfl

/-- A frame that has taken a step has used up what the latest stop meant. -/
theorem standing_of_steps {steps : List (Core Lcd Sound)} (h : steps ≠ []) (log : List Note) :
    standing ((steps.map fun s => Note.frameStep s.event).reverse ++ log) = .nothing ∧
      unmoved? ((steps.map fun s => Note.frameStep s.event).reverse ++ log) = none := by
  obtain ⟨first, last, rfl⟩ := (List.eq_nil_or_concat steps).resolve_left h
  rw [List.concat_eq_append, List.map_append, List.reverse_append]
  exact ⟨rfl, rfl⟩

theorem frameSteps_of_not_paused (h : c.pausedAt = none) :
    c.frameSteps = c.core.frameSteps c.breakpoints c.core.cpu.frameCycles := by
  rw [frameSteps, paused, h]
  rfl

/-- A frame that does not stop begins with a step. -/
theorem exists_frameSteps (hpaused : c.pausedAt = none)
    (hlt : c.core.cpu.frameCycles < cyclesPerFrame)
    (hgoes : ∀ pc, (c.core.runFrame c.breakpoints).1 ≠ .ok (some pc)) :
    ∃ rest, c.frameSteps = c.core :: rest := by
  rw [frameSteps_of_not_paused hpaused]
  refine Core.exists_frameSteps hlt ?_
  by_contra hhit
  rw [Bool.not_eq_false] at hhit
  exact hgoes _ (congrArg Prod.fst (Core.runFrameFrom_of_hit hlt hhit))

theorem Agrees.of_steps (h : Agrees log c) {core : Core Lcd Sound}
    (hrun : (c.core.runFrame c.breakpoints).2 = core) (hpaused : c.pausedAt = none)
    (hgoes : ∀ pc, (c.core.runFrame c.breakpoints).1 ≠ .ok (some pc)) :
    Agrees ((c.frameSteps.map fun s => Note.frameStep s.event).reverse ++ log)
      { c with core := core } := by
  obtain ⟨rest, hsteps⟩ := exists_frameSteps hpaused h.frameCycles_lt hgoes
  obtain ⟨hstanding, hunmoved⟩ :=
    standing_of_steps (hsteps ▸ List.cons_ne_nil c.core rest : c.frameSteps ≠ []) log
  have hskip : (c.core.runFrame c.breakpoints).2.cpu.skipBreakpoint = false :=
    Core.skip_of_frame fun _ => h.frameCycles_lt
  have hrest : (c.core.runFrame c.breakpoints).2.cpu.frameCycles < cyclesPerFrame :=
    Core.frameCycles_of_frame (Nat.lt_add_right _ h.frameCycles_lt)
  rw [hrun] at hskip hrest
  refine ⟨h.breakpoints, ?_, ?_, hrest, ?_⟩
  · rw [hstanding]
    exact hpaused
  · rw [hstanding]
    exact hskip
  · intro pc hpc
    rw [hunmoved] at hpc
    cases hpc

theorem Agrees.frame (h : Agrees log c) : Agrees (c.frameNotes ++ log) c.runFrame.2 := by
  obtain ⟨pc, hpaused, heq⟩ | ⟨hpaused, core, ⟨e, hrun, heq⟩ | ⟨hrun, heq⟩ | ⟨pc, hrun, heq⟩⟩ :=
    runFrame_cases c
  · have hsteps : c.frameSteps = [] := by
      rw [frameSteps, paused, hpaused]
      rfl
    rw [frameNotes, heq, hsteps]
    exact h
  · rw [frameNotes, heq]
    exact h.of_steps (congrArg Prod.snd hrun) hpaused (by simp [hrun])
  · rw [frameNotes, heq]
    exact h.of_steps (congrArg Prod.snd hrun) hpaused (by simp [hrun])
  · obtain ⟨hpc, -, hskip, hlt⟩ := Core.stop_of_breakpoint hrun
    rw [frameNotes, heq]
    refine ⟨h.breakpoints, rfl, hskip, hlt, ?_⟩
    intro pc' hpc'
    obtain rfl := Option.some.inj hpc'
    exact hpc

/-- A step of the host leaves what a frame keeps as it is. -/
theorem Agrees.step (h : Agrees log c) : Agrees (.step c.core.event :: log) c.step.2 where
  breakpoints := h.breakpoints
  pausedAt_eq := h.pausedAt_eq
  skip_eq := (Core.skip_step c.core).trans h.skip_eq
  frameCycles_lt := by
    have hstep := Core.step_retag c.core.cpu.frameCycles c.core.cpu.skipBreakpoint c.core
    rw [Core.retag_self] at hstep
    have hkept : (Exec.step c.core).2.cpu.frameCycles = c.core.cpu.frameCycles :=
      congrArg (fun r => r.2.cpu.frameCycles) hstep
    exact hkept ▸ h.frameCycles_lt
  pc_eq := nofun

theorem Logged.agrees (h : Logged log c) : Agrees log c := by
  induction h with
  | powerOn mode => exact ⟨.empty, rfl, rfl, cyclesPerFrame_pos, nofun⟩
  | insert h cartridge ih => exact ⟨ih.breakpoints, rfl, rfl, cyclesPerFrame_pos, nofun⟩
  | reset h ih => exact ⟨ih.breakpoints, rfl, rfl, cyclesPerFrame_pos, nofun⟩
  | frame h ih => exact ih.frame
  | step h ih => exact ih.step
  | resume h ih => exact ih.resume
  | button h button pressed ih =>
    exact ⟨ih.breakpoints, ih.pausedAt_eq, ih.skip_eq, ih.frameCycles_lt, ih.pc_eq⟩
  | breakpoints h hbs ih =>
    exact ⟨hbs, ih.pausedAt_eq, ih.skip_eq, ih.frameCycles_lt, ih.pc_eq⟩

section

variable {before after : List (Core Lcd Sound)} {s : Core Lcd Sound}
  (hsteps : c.frameSteps = before ++ s :: after)

include hsteps

theorem pausedAt_of_frameSteps : c.pausedAt = none := by
  cases hpaused : c.pausedAt with
  | none => rfl
  | some pc =>
    rw [frameSteps, paused, hpaused] at hsteps
    exact absurd hsteps.symm (List.append_ne_nil_of_right_ne_nil _ (List.cons_ne_nil _ _))

variable (henabled : c.breakpoints.isEnabledAt s.cpu.regs.pc = true)

include henabled

/-- Only the first step of a frame is at an enabled breakpoint. -/
theorem Agrees.first_of_isEnabledAt (h : Agrees log c) : before = [] ∧ s = c.core := by
  rw [← h.breakpoints.isHit_eq] at henabled
  rw [frameSteps_of_not_paused (pausedAt_of_frameSteps hsteps)] at hsteps
  cases before with
  | nil => exact ⟨rfl, (Core.frameSteps_eq_cons hsteps).1⟩
  | cons first more =>
    have hmiss := (Core.frameSteps_eq_cons hsteps).2 s (by simp)
    rw [henabled] at hmiss
    cases hmiss

/-- That step is excused by the latest stop. -/
theorem Agrees.excused_of_isEnabledAt (h : Agrees log c) : ∃ since pc, Excused log since pc := by
  rw [← h.breakpoints.isHit_eq] at henabled
  rw [frameSteps_of_not_paused (pausedAt_of_frameSteps hsteps)] at hsteps
  cases hskip : c.core.cpu.skipBreakpoint with
  | false =>
    have hmiss := Core.isHit_of_mem_frameSteps hskip s (by rw [hsteps]; simp)
    rw [henabled] at hmiss
    cases hmiss
  | true =>
    obtain ⟨pc, hstanding⟩ := Standing.exists_eq_excused (h.skip_eq.symm.trans hskip)
    obtain ⟨since, hsince⟩ := exists_excused hstanding
    exact ⟨since, pc, hsince⟩

end

/-- What a frame does about breakpoints, whatever has been done before. Exactly if the latest
stop still excuses it, it begins with a step whatever the breakpoints. No other step of a frame
is at an enabled breakpoint, and the excused one is at that of the stop, unless the host has
stepped. A stop tells where the program counter is, at an enabled breakpoint, and a pause keeps
the console as it is. -/
theorem breakpoints_stepped_over (h : Logged log c) :
    (∀ before s after, c.frameSteps = before ++ s :: after →
      c.breakpoints.isEnabledAt s.cpu.regs.pc = true →
      before = [] ∧ s = c.core ∧ ∃ since pc, Excused log since pc ∧
        ((∀ e, .step e ∉ since) → s.cpu.regs.pc = pc)) ∧
    (∀ since pc, Excused log since pc → ∃ after, c.frameSteps = c.core :: after) ∧
    (∀ pc d, c.runFrame = (.ok (.breakpoint pc), d) →
      d.core.cpu.regs.pc = pc ∧ c.breakpoints.isEnabledAt pc = true ∧
        d.breakpoints = c.breakpoints) ∧
    (∀ pc, c.pausedAt = some pc → c.runFrame = (.ok (.paused pc), c)) := by
  have hagrees := h.agrees
  refine ⟨?_, ?_, ?_, ?_⟩
  · intro before s after hsteps henabled
    obtain ⟨hfirst, rfl⟩ := hagrees.first_of_isEnabledAt hsteps henabled
    obtain ⟨since, pc, hexcused⟩ := hagrees.excused_of_isEnabledAt hsteps henabled
    refine ⟨hfirst, rfl, since, pc, hexcused, ?_⟩
    intro hsteps
    exact hagrees.pc_eq pc (hexcused.unmoved hsteps)
  · intro since pc hexcused
    have hstanding := hexcused.standing_eq
    have hpaused := hagrees.pausedAt_eq
    have hskip := hagrees.skip_eq
    rw [hstanding] at hpaused hskip
    rw [frameSteps_of_not_paused hpaused]
    refine Core.exists_frameSteps hagrees.frameCycles_lt ?_
    rw [hskip]
    rfl
  · intro pc d hrun
    obtain ⟨hframe, hkept⟩ := eq_of_breakpoint hrun
    obtain ⟨hpc, hhit, -⟩ := Core.stop_of_breakpoint hframe
    rw [hagrees.breakpoints.isHit_eq] at hhit
    exact ⟨hpc, hhit, hkept⟩
  · intro pc hpaused
    rw [runFrame, hpaused]

/-- A console without a cartridge and with breakpoints at its second and third instruction. -/
def twoMarked : Console :=
  { powerOn .emulated with
    breakpoints := ((Breakpoints.empty.add 0x0101).1.add 0x0102).1 }

/-- The console that has stopped at the second instruction, after the end of the pause and a step
of the host. -/
def steppedPast : Console := twoMarked.runFrame.2.resume.step.2

theorem frameNotes_twoMarked :
    twoMarked.frameNotes = [.stop 0x0101, .frameStep (.ran .nop)] := by decide +kernel

theorem event_twoMarked : twoMarked.runFrame.2.resume.core.event = .ran .nop := by decide +kernel

theorem logged_steppedPast :
    Logged [.step (.ran .nop), .resume, .stop 0x0101, .frameStep (.ran .nop)] steppedPast := by
  have hmarked : Logged [] twoMarked :=
    .breakpoints (.powerOn .emulated) (.add (.add .empty 0x0101) 0x0102)
  have hstopped : Logged [.stop 0x0101, .frameStep (.ran .nop)] twoMarked.runFrame.2 := by
    have hframe := Logged.frame hmarked
    rwa [frameNotes_twoMarked] at hframe
  exact event_twoMarked ▸ hstopped.resume.step

theorem isEnabledAt_steppedPast :
    steppedPast.breakpoints.isEnabledAt steppedPast.core.cpu.regs.pc = true := by decide +kernel

theorem skip_steppedPast : steppedPast.core.cpu.skipBreakpoint = true := by decide +kernel

/-- The next frame runs the third instruction, which has a breakpoint. -/
theorem breakpoints_stepped_over_steppedPast :
    steppedPast.core.cpu.regs.pc = 0x0102 ∧
      steppedPast.breakpoints.isEnabledAt steppedPast.core.cpu.regs.pc = true ∧
      ∃ after, steppedPast.frameSteps = steppedPast.core :: after := by
  obtain ⟨-, hexcused, -⟩ := breakpoints_stepped_over logged_steppedPast
  refine ⟨by decide +kernel, isEnabledAt_steppedPast,
    hexcused [.step (.ran .nop), .resume] 0x0101 ?_⟩
  exact ⟨⟨[.frameStep (.ran .nop)], rfl⟩, by decide, by simp⟩

/-- Leave to run the instruction at a breakpoint: the latest stop was at this very address, the
pause was ended since, and no instruction has run. -/
def Permitted (log : List Note) (pc : UInt16) : Prop :=
  ∃ since earlier, log = since ++ .stop pc :: earlier ∧ (∀ other, .stop other ∉ since) ∧
    .resume ∈ since ∧ ∀ e, .frameStep e ∈ since ∨ .step e ∈ since → e = .idle

/-- A frame may run the instruction at an enabled breakpoint although the latest stop was at
another one. -/
theorem not_permitted :
    ¬ ∀ (log : List Note) (c : Console), Logged log c →
      ∀ before s after, c.frameSteps = before ++ s :: after → s.event ≠ .idle →
        c.breakpoints.isEnabledAt s.cpu.regs.pc = true →
        Permitted ((before.map fun s => Note.frameStep s.event).reverse ++ log)
          s.cpu.regs.pc := by
  intro hall
  have hnotPaused : steppedPast.pausedAt = none := by decide +kernel
  have hlt : steppedPast.core.cpu.frameCycles < cyclesPerFrame := by decide +kernel
  obtain ⟨after, hsteps⟩ : ∃ after, steppedPast.frameSteps = [] ++ steppedPast.core :: after := by
    rw [frameSteps_of_not_paused hnotPaused]
    exact Core.exists_frameSteps hlt (by rw [skip_steppedPast]; rfl)
  have hevent : steppedPast.core.event ≠ .idle := by decide +kernel
  obtain ⟨since, earlier, hlog, -, -, hidle⟩ :=
    hall _ _ logged_steppedPast [] _ after hsteps hevent isEnabledAt_steppedPast
  -- The latest note is the step of the host, so that it lies after the stop.
  cases since with
  | nil => cases hlog
  | cons n since =>
    obtain ⟨rfl, -⟩ := List.cons.inj hlog
    cases hidle _ (.inr List.mem_cons_self)

end Console

end Handheld
