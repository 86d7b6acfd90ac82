import Handheld.Proofs.Breakpoints
import Handheld.Proofs.Undisturbed
import Handheld.Session

/-!
Goes at a frame, one after the other. Whatever stops at breakpoints, the machine goes through
the states of one undisturbed run: what is ahead of it does not change when a go ends. Halfway
through a frame, at a breakpoint, this holds up to the end of that frame at the earliest. A
run that leaves every breakpoint again notes all of them that were ahead.
-/
namespace Handheld

namespace Console

/-- What is ahead of a console that has completed some frames, up to the end of another. -/
def outlook (target done : Nat) (c : Console) : Drive Lcd Sound :=
  c.core.outlook c.breakpoints (target * cyclesPerFrame)
    (done * cyclesPerFrame + c.core.cpu.frameCycles)

/-- How the run ahead ends. -/
def fate (target done : Nat) (c : Console) : Except CpuError Nat × Core Lcd Sound :=
  ((c.outlook target done).result, (c.outlook target done).final)

/-- Whether the console is at a breakpoint within a frame, paused or about to leave it. -/
def isHalfway (c : Console) : Bool := c.paused || c.core.cpu.skipBreakpoint

/-- The frame that the console is in the middle of, if it is halfway. -/
def begun (c : Console) : Nat := if c.isHalfway then 1 else 0

/-- A breakpoint is reached only within a frame. -/
def Tidy (c : Console) : Prop := c.isHalfway = true → c.core.cpu.frameCycles < cyclesPerFrame

/-- A go at a frame completes it, stops at a breakpoint for good or for a moment, or ends a
pause. -/
theorem turn_cases {stopOnBreak : Bool} {done done' : Summary} {c c' : Console}
    (h : turn stopOnBreak done c = (.ok done', c')) :
    (∃ core, c.pausedAt = none ∧ c.core.runFrame c.breakpoints = (.ok none, core) ∧
      done' = { done with frames := done.frames + 1 } ∧ c' = { c with core := core }) ∨
    (∃ pc core, c.pausedAt = none ∧ c.core.runFrame c.breakpoints = (.ok (some pc), core) ∧
      stopOnBreak = true ∧
      done' =
        { done with hits := done.hits.push ⟨pc, core.cpu.debugText⟩, stoppedEarly := true } ∧
      c' = { c with core := core, pausedAt := some pc }) ∨
    (∃ pc core, c.pausedAt = none ∧ c.core.runFrame c.breakpoints = (.ok (some pc), core) ∧
      stopOnBreak = false ∧
      done' = { done with hits := done.hits.push ⟨pc, core.cpu.debugText⟩ } ∧
      c' = { c with core := core.setSkip true, pausedAt := none }) ∨
    (∃ pc, c.pausedAt = some pc ∧ done' = done ∧
      c' = { c with core := c.core.setSkip true, pausedAt := none }) := by
  cases hpaused : c.pausedAt with
  | some pc =>
    simp only [turn, runFrame, hpaused, resume, Prod.mk.injEq, Except.ok.injEq] at h
    obtain ⟨rfl, rfl⟩ := h
    exact Or.inr (Or.inr (Or.inr ⟨pc, rfl, rfl, rfl⟩))
  | none =>
    cases hrun : c.core.runFrame c.breakpoints with
    | mk outcome core =>
      cases outcome with
      | error e => simp [turn, runFrame, hpaused, hrun] at h
      | ok stop =>
        cases stop with
        | none =>
          simp only [turn, runFrame, hpaused, hrun, Prod.mk.injEq, Except.ok.injEq] at h
          obtain ⟨rfl, rfl⟩ := h
          exact Or.inl ⟨core, rfl, rfl, rfl, by rw [← hpaused]⟩
        | some pc =>
          cases hstop : stopOnBreak with
          | true =>
            simp only [turn, runFrame, hpaused, hrun, hstop, if_true, Prod.mk.injEq,
              Except.ok.injEq] at h
            obtain ⟨rfl, rfl⟩ := h
            exact Or.inr (Or.inl ⟨pc, core, rfl, rfl, rfl, rfl, rfl⟩)
          | false =>
            simp only [turn, runFrame, hpaused, hrun, hstop, resume, Bool.false_eq_true, if_false,
              Prod.mk.injEq, Except.ok.injEq] at h
            obtain ⟨rfl, rfl⟩ := h
            exact Or.inr (Or.inr (Or.inl ⟨pc, core, rfl, rfl, rfl, rfl, rfl⟩))

section Link

-- The length of a frame plays no role here, and must not be computed with.
attribute [local irreducible] cyclesPerFrame

/-- A console that has completed `k` frames goes on to one that has completed `l`. Before both
of them lies the same, however many frames have been completed before. -/
structure Link (k : Nat) (c : Console) (l : Nat) (d : Console) : Prop where
  breakpoints : d.breakpoints = c.breakpoints
  clockMode : d.clockMode = c.clockMode
  tidy : c.Tidy → d.Tidy
  le : k + c.begun ≤ l + d.begun
  fate : ∀ base target, base + l + d.begun ≤ target →
    c.fate target (base + k) = d.fate target (base + l)

theorem Link.refl (k : Nat) (c : Console) : Link k c k c :=
  ⟨rfl, rfl, id, Nat.le_refl _, fun _ _ _ => rfl⟩

theorem Link.trans {k l m : Nat} {c d e : Console} (first : Link k c l d) (next : Link l d m e) :
    Link k c m e where
  breakpoints := next.breakpoints.trans first.breakpoints
  clockMode := next.clockMode.trans first.clockMode
  tidy := fun h => next.tidy (first.tidy h)
  le := Nat.le_trans first.le next.le
  fate := fun base target htarget => by
    have hle := next.le
    rw [first.fate base target (by omega), next.fate base target htarget]

/-- Frames completed before may be counted along. -/
theorem Link.shift {k l : Nat} {c d : Console} (link : Link k c l d) (n : Nat) :
    Link (n + k) c (n + l) d where
  breakpoints := link.breakpoints
  clockMode := link.clockMode
  tidy := link.tidy
  le := by
    have hle := link.le
    omega
  fate := fun base target htarget => by
    rw [← Nat.add_assoc, ← Nat.add_assoc]
    exact link.fate (base + n) target (by omega)

theorem begun_le (c : Console) : c.begun ≤ 1 := by
  unfold begun
  split <;> omega

theorem begun_of_halfway {c : Console} (h : c.isHalfway = true) : c.begun = 1 := if_pos h

/-- A console halfway through a frame is not behind any other in that frame. -/
theorem add_begun_le (k : Nat) (c : Console) {d : Console} (h : d.isHalfway = true) :
    k + c.begun ≤ k + d.begun := by
  rw [begun_of_halfway h]
  exact Nat.add_le_add_left (begun_le c) k

/-- The end of a later frame is past the end of this one. -/
theorem frame_le {done target : Nat} (h : done + 1 ≤ target) :
    done * cyclesPerFrame + cyclesPerFrame ≤ target * cyclesPerFrame := by
  rw [← Nat.succ_mul]
  exact Nat.mul_le_mul_right _ h

/-- A completed frame leaves no breakpoint to be stepped over. -/
theorem skip_of_complete {c : Console} {core : Core Lcd Sound} (htidy : c.Tidy)
    (hrun : c.core.runFrame c.breakpoints = (.ok none, core)) :
    core.cpu.skipBreakpoint = false :=
  Core.skip_of_complete hrun fun h => htidy (by simp [isHalfway, h])

theorem link_of_complete {c : Console} {core : Core Lcd Sound} (k : Nat)
    (hpaused : c.pausedAt = none) (hrun : c.core.runFrame c.breakpoints = (.ok none, core)) :
    Link k c (k + 1) { c with core := core } where
  breakpoints := rfl
  clockMode := rfl
  tidy := fun htidy hhalfway => by
    simp [isHalfway, paused, hpaused, skip_of_complete htidy hrun] at hhalfway
  le := by
    have hle := begun_le c
    omega
  fate := fun base target htarget => by
    have hahead := Core.outlook_of_complete hrun (frame_le (by omega : base + k + 1 ≤ target))
    rw [← Nat.succ_mul] at hahead
    exact congrArg (fun d => (d.result, d.final)) hahead

theorem link_of_breakpoint {c : Console} {core : Core Lcd Sound} {pc : UInt16} (k : Nat)
    (hrun : c.core.runFrame c.breakpoints = (.ok (some pc), core)) :
    Link k c k { c with core := core, pausedAt := some pc } where
  breakpoints := rfl
  clockMode := rfl
  tidy := fun _ _ => (Core.stop_of_breakpoint hrun).2.2.2
  le := add_begun_le k c rfl
  fate := fun base target htarget => by
    rw [begun_of_halfway rfl] at htarget
    have hahead := Core.outlook_of_breakpoint hrun (frame_le htarget)
    exact congrArg (fun d => (d.result, d.final)) hahead

/-- Ending a pause changes nothing ahead. -/
theorem link_of_pause {c : Console} {pc : UInt16} (k : Nat) (hpaused : c.pausedAt = some pc) :
    Link k c k { c with core := c.core.setSkip true, pausedAt := none } where
  breakpoints := rfl
  clockMode := rfl
  tidy := fun htidy _ => htidy (by simp [isHalfway, paused, hpaused])
  le := add_begun_le k c rfl
  fate := fun _ _ _ => rfl

theorem link_turn {stopOnBreak : Bool} {done done' : Summary} {c c' : Console}
    (h : turn stopOnBreak done c = (.ok done', c')) : Link done.frames c done'.frames c' := by
  rcases turn_cases h with ⟨core, hpaused, hrun, rfl, rfl⟩ | ⟨pc, core, -, hrun, -, rfl, rfl⟩ |
    ⟨pc, core, -, hrun, -, rfl, rfl⟩ | ⟨pc, hpaused, rfl, rfl⟩
  · exact link_of_complete _ hpaused hrun
  · exact link_of_breakpoint _ hrun
  · exact (link_of_breakpoint done.frames hrun).trans (link_of_pause _ rfl)
  · exact link_of_pause _ hpaused

theorem link_runFrom {frames : Nat} {stopOnBreak : Bool} {done summary : Summary} {c c' : Console}
    (h : runFrom frames stopOnBreak done c = (.ok summary, c')) :
    Link done.frames c summary.frames c' := by
  fun_induction runFrom frames stopOnBreak done c with
  | case1 done c hover =>
    obtain ⟨hsummary, rfl⟩ := Prod.mk.inj h
    rw [Except.ok.inj hsummary]
    exact .refl _ _
  | case2 done c hgo e d hturn => cases h
  | case3 done c hgo done' d hturn ih => exact (link_turn hturn).trans (ih h)

theorem runFrom_of_isOver {frames : Nat} {done : Summary} (h : isOver frames done = true)
    (stopOnBreak : Bool) (c : Console) : runFrom frames stopOnBreak done c = (.ok done, c) := by
  rw [runFrom, dif_pos h]

theorem runFrom_of_turn {frames : Nat} {stopOnBreak : Bool} {done done' : Summary}
    {c c' : Console} (hgo : isOver frames done = false)
    (hturn : turn stopOnBreak done c = (.ok done', c')) :
    runFrom frames stopOnBreak done c = runFrom frames stopOnBreak done' c' := by
  rw [runFrom, dif_neg (by simp [hgo])]
  split
  · rename_i e d hturn'
    rw [hturn] at hturn'
    cases hturn'
  · rename_i done'' d hturn'
    rw [hturn] at hturn'
    cases hturn'
    rfl

/-- A run that goes on may be about to step over a breakpoint, one that is over is not. -/
theorem skip_runFrom {frames : Nat} {stopOnBreak : Bool} {done summary : Summary}
    {c c' : Console} (h : runFrom frames stopOnBreak done c = (.ok summary, c')) (htidy : c.Tidy)
    (hskip : c.core.cpu.skipBreakpoint = true → isOver frames done = false) :
    c'.core.cpu.skipBreakpoint = false := by
  fun_induction runFrom frames stopOnBreak done c with
  | case1 done c hover =>
    obtain ⟨-, rfl⟩ := Prod.mk.inj h
    cases hs : c.core.cpu.skipBreakpoint with
    | true => rw [hskip hs] at hover; cases hover
    | false => rfl
  | case2 done c hgo e d hturn => cases h
  | case3 done c hgo done' d hturn ih =>
    have hgoing : isOver frames done = false := by simpa using hgo
    refine ih h ((link_turn hturn).tidy htidy) fun hs => ?_
    rcases turn_cases hturn with ⟨core, -, hrun, rfl, rfl⟩ | ⟨pc, core, -, hrun, -, rfl, rfl⟩ |
      ⟨pc, core, -, -, -, rfl, rfl⟩ | ⟨pc, -, rfl, rfl⟩
    · rw [skip_of_complete htidy hrun] at hs
      cases hs
    · rw [(Core.stop_of_breakpoint hrun).2.2.1] at hs
      cases hs
    · exact hgoing
    · exact hgoing

/-- A go at a frame gets to the end of that frame at most. -/
theorem frames_turn_le {stopOnBreak : Bool} {done done' : Summary} {c c' : Console}
    (h : turn stopOnBreak done c = (.ok done', c')) (htidy : c.Tidy) :
    done'.frames + c'.begun ≤ done.frames + 1 := by
  have hle := begun_le c'
  rcases turn_cases h with ⟨core, hpaused, hrun, rfl, rfl⟩ | ⟨pc, core, -, -, -, rfl, -⟩ |
    ⟨pc, core, -, -, -, rfl, -⟩ | ⟨pc, -, rfl, -⟩
  · have hnot : isHalfway { c with core := core } = false := by
      simp [isHalfway, paused, hpaused, skip_of_complete htidy hrun]
    simp [begun, hnot]
  · exact Nat.add_le_add_left hle _
  · exact Nat.add_le_add_left hle _
  · exact Nat.add_le_add_left hle _

/-- A go at a frame fails only if the frame does. -/
theorem turn_error {stopOnBreak : Bool} {done : Summary} {e : CpuError} {c c' : Console}
    (h : turn stopOnBreak done c = (.error e, c')) :
    ∃ core, c.pausedAt = none ∧ c.core.runFrame c.breakpoints = (.error e, core) ∧
      c' = { c with core := core } := by
  cases hpaused : c.pausedAt with
  | some pc => simp [turn, runFrame, hpaused] at h
  | none =>
    cases hrun : c.core.runFrame c.breakpoints with
    | mk outcome core =>
      cases outcome with
      | error e' =>
        simp only [turn, runFrame, hpaused, hrun, Prod.mk.injEq, Except.error.injEq] at h
        obtain ⟨rfl, rfl⟩ := h
        exact ⟨core, rfl, rfl, by rw [← hpaused]⟩
      | ok stop => cases stop <;> cases stopOnBreak <;> simp [turn, runFrame, hpaused, hrun] at h

theorem lt_of_not_isOver {frames : Nat} {done : Summary} (h : ¬isOver frames done = true) :
    done.stoppedEarly = false ∧ done.frames < frames := by
  simpa [isOver] using h

/-- A run fails only if the undisturbed one does. -/
theorem fate_of_failure {frames : Nat} {stopOnBreak : Bool} {done : Summary} {e : CpuError}
    {c c' : Console} (h : runFrom frames stopOnBreak done c = (.error e, c')) (htidy : c.Tidy) :
    (c.fate frames done.frames).1 = .error e := by
  fun_induction runFrom frames stopOnBreak done c with
  | case1 done c hover => cases h
  | case2 done c hgo e' d hturn =>
    obtain rfl : e' = e := Except.error.inj (Prod.mk.inj h).1
    obtain ⟨core, -, hrun, -⟩ := turn_error hturn
    have hahead : (c.outlook frames done.frames).result = .error e' :=
      Core.outlook_of_failure hrun (frame_le (lt_of_not_isOver hgo).2)
    rw [fate, hahead]
  | case3 done c hgo done' d hturn ih =>
    have hlink := link_turn hturn
    have hlt := (lt_of_not_isOver hgo).2
    have hle := frames_turn_le hturn htidy
    have hsame := hlink.fate 0 frames (by omega)
    rw [Nat.zero_add, Nat.zero_add] at hsame
    rw [hsame]
    exact ih h (hlink.tidy htidy)

/-- A run that leaves every breakpoint again completes all its frames, and is not paused. -/
theorem frames_of_runFrom {frames : Nat} {done summary : Summary} {c c' : Console}
    (h : runFrom frames false done c = (.ok summary, c')) (hpaused : c.pausedAt = none)
    (hearly : done.stoppedEarly = false) (hframes : done.frames ≤ frames) :
    summary.frames = frames ∧ summary.stoppedEarly = false ∧ c'.pausedAt = none := by
  fun_induction runFrom frames false done c with
  | case1 done c hover =>
    obtain ⟨hsummary, rfl⟩ := Prod.mk.inj h
    obtain rfl := Except.ok.inj hsummary
    have hle : frames ≤ done.frames := by simpa [isOver, hearly] using hover
    exact ⟨by omega, hearly, hpaused⟩
  | case2 done c hgo e d hturn => cases h
  | case3 done c hgo done' d hturn ih =>
    have hlt := (lt_of_not_isOver hgo).2
    rcases turn_cases hturn with ⟨core, -, -, rfl, rfl⟩ | ⟨pc, core, -, -, hstop, -, -⟩ |
      ⟨pc, core, -, -, -, rfl, rfl⟩ | ⟨pc, hsome, -, -⟩
    · exact ih h hpaused hearly hlt
    · cases hstop
    · exact ih h rfl hearly hframes
    · rw [hpaused] at hsome
      cases hsome

/-- The note of a stop at a state. -/
def hitAt (s : Core Lcd Sound) : Hit := ⟨s.cpu.regs.pc, s.cpu.debugText⟩

/-- A run that leaves every breakpoint again notes all of them that are ahead, in order. -/
theorem hits_of_runFrom {frames : Nat} {done summary : Summary} {c c' : Console}
    (h : runFrom frames false done c = (.ok summary, c')) (hpaused : c.pausedAt = none)
    (hearly : done.stoppedEarly = false) :
    summary.hits.toList =
      done.hits.toList ++ (c.outlook frames done.frames).visited.map hitAt := by
  fun_induction runFrom frames false done c with
  | case1 done c hover =>
    obtain ⟨hsummary, rfl⟩ := Prod.mk.inj h
    obtain rfl := Except.ok.inj hsummary
    have hle : frames ≤ done.frames := by simpa [isOver, hearly] using hover
    have hpast : frames * cyclesPerFrame ≤
        done.frames * cyclesPerFrame + c.core.cpu.frameCycles :=
      Nat.le_trans (Nat.mul_le_mul_right _ hle) (Nat.le_add_right _ _)
    rw [outlook, Core.outlook_of_le hpast]
    exact (List.append_nil _).symm
  | case2 done c hgo e d hturn => cases h
  | case3 done c hgo done' d hturn ih =>
    have htarget := frame_le (lt_of_not_isOver hgo).2
    rcases turn_cases hturn with ⟨core, -, hrun, rfl, rfl⟩ | ⟨pc, core, -, -, hstop, -, -⟩ |
      ⟨pc, core, -, hrun, -, rfl, rfl⟩ | ⟨pc, hsome, -, -⟩
    · have hahead := Core.outlook_of_complete hrun htarget
      rw [← Nat.succ_mul] at hahead
      rw [ih h hpaused hearly, outlook, outlook, hahead]
    · cases hstop
    · have hahead := Core.outlook_of_breakpoint hrun htarget
      obtain ⟨hpc, hhit, hskip, hlt⟩ := Core.stop_of_breakpoint hrun
      have hwithin : done.frames * cyclesPerFrame + core.cpu.frameCycles <
          frames * cyclesPerFrame := by omega
      have hnoted := Core.outlook_of_hit hwithin hskip (hpc ▸ hhit)
      have hhit : hitAt core.bare = ⟨pc, core.cpu.debugText⟩ := by rw [← hpc]; rfl
      rw [ih h rfl hearly, outlook, outlook, hahead, hnoted, List.map_cons, hhit,
        Array.toList_push, List.append_assoc]
      rfl
    · rw [hpaused] at hsome
      cases hsome

/-- The console with its breakpoints removed. -/
def withoutBreakpoints (c : Console) : Console := { c with breakpoints := .empty }

/-- How the run ahead ends has nothing to do with breakpoints. -/
theorem fate_withoutBreakpoints (target done : Nat) (c : Console) :
    c.withoutBreakpoints.fate target done = c.fate target done := by
  rw [fate, fate, outlook, outlook, Core.outlook, Core.outlook]
  rfl

theorem begun_of_settled {c : Console} (hpaused : c.pausedAt = none)
    (hskip : c.core.cpu.skipBreakpoint = false) : c.begun = 0 := by
  simp [begun, isHalfway, paused, hpaused, hskip]

theorem tidy_of_settled {c : Console} (hpaused : c.pausedAt = none)
    (hskip : c.core.cpu.skipBreakpoint = false) : c.Tidy := by
  intro h
  simp [isHalfway, paused, hpaused, hskip] at h

/-- Where the run ahead ends is where a settled console is after its frames. -/
theorem fate_of_link {frames : Nat} {c d : Console} (link : Link 0 c frames d)
    (hpaused : d.pausedAt = none) (hskip : d.core.cpu.skipBreakpoint = false) :
    c.fate frames 0 = (.ok (frames * cyclesPerFrame + d.core.cpu.frameCycles), d.core.bare) := by
  have hbegun := begun_of_settled hpaused hskip
  have hsame := link.fate 0 frames (by omega)
  rw [Nat.zero_add, Nat.zero_add] at hsame
  rw [hsame, fate, outlook, Core.outlook_of_le (Nat.le_add_right _ _)]

/-- Without breakpoints nothing is noted. -/
theorem visited_withoutBreakpoints (target done : Nat) (c : Console) :
    (c.withoutBreakpoints.outlook target done).visited = [] := by
  have hnone (s : Core Lcd Sound) : ¬Core.stopsAt Breakpoints.empty s = true := by
    simp [Core.stopsAt, Breakpoints.isHit_empty]
  exact List.filter_eq_nil_iff.mpr fun s _ => hnone s

/-- What consoles lead to is the same if they are the same but for their breakpoints. -/
theorem run_withoutBreakpoints {frames : Nat} {c d : Console} (link : Link 0 c frames d)
    (hpaused : c.pausedAt = none) (hskip : c.core.cpu.skipBreakpoint = false)
    (hpaused' : d.pausedAt = none) (hskip' : d.core.cpu.skipBreakpoint = false) :
    c.withoutBreakpoints.run frames false = (.ok ⟨frames, #[], false⟩, d.withoutBreakpoints) := by
  have htidy : c.withoutBreakpoints.Tidy := tidy_of_settled hpaused hskip
  have hfate := fate_of_link link hpaused' hskip'
  cases hrun : c.withoutBreakpoints.run frames false with
  | mk result e =>
    cases result with
    | error cause =>
      have hfailed := fate_of_failure hrun htidy
      rw [fate_withoutBreakpoints] at hfailed
      rw [Summary.start, hfate] at hfailed
      cases hfailed
    | ok summary =>
      obtain ⟨hframes, hearly, hpausedEnd⟩ :=
        frames_of_runFrom hrun hpaused rfl (Nat.zero_le _)
      have hhits := hits_of_runFrom hrun hpaused rfl
      rw [visited_withoutBreakpoints] at hhits
      have hskipEnd := skip_runFrom hrun htidy fun hs => absurd (hs.symm.trans hskip) (by decide)
      have hend := link_runFrom hrun
      rw [hframes] at hend
      have hfateEnd := fate_of_link hend hpausedEnd hskipEnd
      rw [fate_withoutBreakpoints, hfate] at hfateEnd
      obtain ⟨hcycles, hbare⟩ := Prod.mk.inj hfateEnd
      have hcycles : d.core.cpu.frameCycles = e.core.cpu.frameCycles :=
        Nat.add_left_cancel (Except.ok.inj hcycles)
      have hcore : d.core = e.core :=
        Core.eq_of_bare hbare hcycles (hskip'.trans hskipEnd.symm)
      have hconsole : e = d.withoutBreakpoints := by
        have hbreakpoints : e.breakpoints = .empty := hend.breakpoints
        have hclock : e.clockMode = d.clockMode := hend.clockMode.trans link.clockMode.symm
        cases e
        simp only at hcore hbreakpoints hclock hpausedEnd
        rw [withoutBreakpoints, hcore, hpaused', hbreakpoints, hclock, hpausedEnd]
      have hsummary : summary = ⟨frames, #[], false⟩ := by
        have hnone : summary.hits = #[] := Array.toList_inj.mp hhits
        cases summary
        simp only at hframes hnone hearly
        rw [hframes, hnone, hearly]
      rw [hsummary, hconsole]

end Link

end Console

end Handheld
