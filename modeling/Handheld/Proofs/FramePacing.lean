import Handheld.Console
import Handheld.Proofs.Activity
import Handheld.Proofs.Manual.Cost
import Handheld.Proofs.Undisturbed

/-!
Frames keep pace with the bus. What an instruction takes past the end of a frame is taken off
the next one, whatever stops and pauses lie between, so that the cycles of the bus are those of
the completed frames and of the one that has begun. A frame ends within one step of its length.
-/
namespace Handheld

namespace Core

variable {V A : Type} [VideoUnit V] [AudioUnit A]

/-- The cycles of a step that takes an interrupt after the longest instruction. -/
def longestStep : Nat := 44

/-- A step that succeeds takes the cycles that the bus counts, of which there are not many. -/
theorem cycles_of_step {s t : Core V A} {taken : Nat} (h : Exec.step s = (.ok taken, t)) :
    t.bus.cycles = s.bus.cycles + taken ∧ taken ≤ longestStep := by
  rw [step_eq] at h
  obtain ⟨houtcome, rfl⟩ := Prod.mk.inj h
  have hevent : s.event ≠ .failed := by
    intro hfailed
    rw [outcome, if_pos hfailed] at houtcome
    cases houtcome
  have hnext : s.next.bus.cycles = (s.after s.event).answered.bus.cycles := by
    rw [next, if_neg hevent]
    rfl
  rw [outcome, if_neg hevent] at houtcome
  have hcost : (s.after s.event).answered.bus.cycles - s.bus.cycles = taken :=
    Except.ok.inj houtcome
  obtain ⟨base, hafter, -, -, -, hbase⟩ := exists_actionCost hevent
  have hanswered := cycles_answered (s.after s.event)
  have hinterrupt : (if (s.after s.event).interrupt?.isSome then 20 else 0) ≤ 20 := by
    split <;> omega
  unfold longestStep
  omega

variable {breakpoints : Breakpoints} {elapsed : Nat} {s t : Core V A}

-- The length of a frame must not be computed with.
attribute [local irreducible] cyclesPerFrame

/-- The cycles that have passed in the frame when it ends are counted for the next one, less a
frame if it was completed. -/
theorem cycles_of_frame {stop : Option UInt16}
    (h : runFrameFrom breakpoints elapsed s = (.ok stop, t)) :
    elapsed + t.bus.cycles =
      s.bus.cycles + t.cpu.frameCycles + if stop = none then cyclesPerFrame else 0 := by
  fun_induction runFrameFrom breakpoints elapsed s with
  | case1 elapsed s hlt pc hhit =>
    obtain ⟨hstop, rfl⟩ := Prod.mk.inj h
    obtain rfl := Except.ok.inj hstop
    rw [if_neg (Option.some_ne_none pc)]
    exact Nat.add_comm _ _
  | case2 elapsed s hlt pc hmiss taken u hstep ih =>
    have hframe := ih h
    have htaken : u.bus.cycles = s.bus.cycles + taken := (cycles_of_step hstep).1
    omega
  | case3 elapsed s hlt pc hmiss e u hstep => cases h
  | case4 elapsed s hle =>
    obtain ⟨hstop, rfl⟩ := Prod.mk.inj h
    obtain rfl := Except.ok.inj hstop
    rw [if_pos rfl, bus_setFrameCycles, frameCycles_setFrameCycles]
    omega

/-- A completed frame ends within a step of its length. -/
theorem frameCycles_of_complete (h : runFrameFrom breakpoints elapsed s = (.ok none, t))
    (hlt : elapsed < cyclesPerFrame + longestStep) : t.cpu.frameCycles < longestStep := by
  fun_induction runFrameFrom breakpoints elapsed s with
  | case1 elapsed s hin pc hhit => cases h
  | case2 elapsed s hin pc hmiss taken u hstep ih =>
    have htaken := (cycles_of_step hstep).2
    exact ih h (by omega)
  | case3 elapsed s hin pc hmiss e u hstep => cases h
  | case4 elapsed s hout =>
    obtain ⟨-, rfl⟩ := Prod.mk.inj h
    rw [frameCycles_setFrameCycles]
    omega

end Core

namespace Console

/-- A frame does nothing while paused. Otherwise it fails, is completed or stops. -/
theorem runFrame_cases (c : Console) :
    (∃ pc, c.pausedAt = some pc ∧ c.runFrame = (.ok (.paused pc), c)) ∨
    (c.pausedAt = none ∧ ∃ core,
      (∃ e, c.core.runFrame c.breakpoints = (.error e, core) ∧
        c.runFrame = (.error e, { c with core := core })) ∨
      (c.core.runFrame c.breakpoints = (.ok none, core) ∧
        c.runFrame = (.ok .complete, { c with core := core })) ∨
      (∃ pc, c.core.runFrame c.breakpoints = (.ok (some pc), core) ∧
        c.runFrame = (.ok (.breakpoint pc), { c with core := core, pausedAt := some pc }))) := by
  cases hpaused : c.pausedAt with
  | some pc => exact .inl ⟨pc, rfl, by simp only [runFrame, hpaused]⟩
  | none =>
    refine .inr ⟨rfl, ?_⟩
    cases hrun : c.core.runFrame c.breakpoints with
    | mk result core =>
      cases result with
      | error e => exact ⟨core, .inl ⟨e, rfl, by simp only [runFrame, hpaused, hrun]⟩⟩
      | ok stop =>
        cases stop with
        | none => exact ⟨core, .inr (.inl ⟨rfl, by simp only [runFrame, hpaused, hrun]⟩)⟩
        | some pc => exact ⟨core, .inr (.inr ⟨pc, rfl, by simp only [runFrame, hpaused, hrun]⟩)⟩

variable {c d : Console}

theorem eq_of_complete (h : c.runFrame = (.ok .complete, d)) :
    c.core.runFrame c.breakpoints = (.ok none, d.core) := by
  obtain ⟨pc, -, heq⟩ | ⟨-, core, ⟨e, -, heq⟩ | ⟨hrun, heq⟩ | ⟨pc, -, heq⟩⟩ := runFrame_cases c
  · rw [heq] at h
    cases h
  · rw [heq] at h
    cases h
  · rw [heq] at h
    obtain ⟨-, rfl⟩ := Prod.mk.inj h
    exact hrun
  · rw [heq] at h
    cases h

theorem eq_of_breakpoint {pc : UInt16} (h : c.runFrame = (.ok (.breakpoint pc), d)) :
    c.core.runFrame c.breakpoints = (.ok (some pc), d.core) ∧ d.breakpoints = c.breakpoints := by
  obtain ⟨pc', -, heq⟩ | ⟨-, core, ⟨e, -, heq⟩ | ⟨-, heq⟩ | ⟨pc', hrun, heq⟩⟩ := runFrame_cases c
  · rw [heq] at h
    cases h
  · rw [heq] at h
    cases h
  · rw [heq] at h
    cases h
  · rw [heq] at h
    obtain ⟨hpc, rfl⟩ := Prod.mk.inj h
    obtain rfl := FrameOutcome.breakpoint.inj (Except.ok.inj hpc)
    exact ⟨hrun, rfl⟩

theorem eq_of_paused {pc : UInt16} (h : c.runFrame = (.ok (.paused pc), d)) : d = c := by
  obtain ⟨pc', -, heq⟩ | ⟨-, core, ⟨e, -, heq⟩ | ⟨-, heq⟩ | ⟨pc', -, heq⟩⟩ := runFrame_cases c
  · rw [heq] at h
    exact (Prod.mk.inj h).2.symm
  · rw [heq] at h
    cases h
  · rw [heq] at h
    cases h
  · rw [heq] at h
    cases h

/-- A console that since its reset has been driven by frames, of which none has failed, and by
ends of pauses, edits of the breakpoints and buttons. The number is that of the frames that were
completed. -/
inductive FrameDriven : Nat → Console → Prop
  | reset (c : Console) : FrameDriven 0 c.reset
  | complete {k : Nat} {c d : Console} (h : FrameDriven k c)
      (hrun : c.runFrame = (.ok .complete, d)) : FrameDriven (k + 1) d
  | stop {k : Nat} {c d : Console} {pc : UInt16} (h : FrameDriven k c)
      (hrun : c.runFrame = (.ok (.breakpoint pc), d)) : FrameDriven k d
  | paused {k : Nat} {c d : Console} {pc : UInt16} (h : FrameDriven k c)
      (hrun : c.runFrame = (.ok (.paused pc), d)) : FrameDriven k d
  | resume {k : Nat} {c : Console} (h : FrameDriven k c) : FrameDriven k c.resume
  | breakpoints {k : Nat} {c : Console} (h : FrameDriven k c) (bs : Breakpoints) :
      FrameDriven k { c with breakpoints := bs }
  | button {k : Nat} {c : Console} (h : FrameDriven k c) (button : Button) (pressed : Bool) :
      FrameDriven k (c.setButton button pressed)

/-- The bus has counted `k` frames and what has passed of the next one. -/
structure OnPace (k : Nat) (c : Console) : Prop where
  cycles_eq : c.core.bus.cycles = cyclesPerFrame * k + c.core.cpu.frameCycles
  frameCycles_lt : c.core.cpu.frameCycles < cyclesPerFrame

theorem longestStep_lt : Core.longestStep < cyclesPerFrame := by decide

theorem cyclesPerFrame_pos : 0 < cyclesPerFrame := by decide

theorem onPace_reset (c : Console) : OnPace 0 c.reset := ⟨rfl, cyclesPerFrame_pos⟩

variable {k : Nat}

theorem OnPace.complete (h : OnPace k c) (hrun : c.runFrame = (.ok .complete, d)) :
    d.core.cpu.frameCycles < Core.longestStep ∧
      c.core.cpu.frameCycles + d.core.bus.cycles =
        c.core.bus.cycles + d.core.cpu.frameCycles + cyclesPerFrame :=
  ⟨Core.frameCycles_of_complete (eq_of_complete hrun) (Nat.lt_add_right _ h.frameCycles_lt),
    Core.cycles_of_frame (eq_of_complete hrun)⟩

theorem OnPace.next (h : OnPace k c) (hrun : c.runFrame = (.ok .complete, d)) :
    OnPace (k + 1) d := by
  obtain ⟨hlt, hcycles⟩ := h.complete hrun
  have hframe := longestStep_lt
  have hbefore := h.cycles_eq
  refine ⟨?_, by omega⟩
  rw [Nat.mul_succ]
  omega

theorem OnPace.stop (h : OnPace k c) {pc : UInt16}
    (hrun : c.runFrame = (.ok (.breakpoint pc), d)) : OnPace k d := by
  obtain ⟨hframe, -⟩ := eq_of_breakpoint hrun
  have hcycles : c.core.cpu.frameCycles + d.core.bus.cycles =
      c.core.bus.cycles + d.core.cpu.frameCycles + 0 := Core.cycles_of_frame hframe
  have hbefore := h.cycles_eq
  exact ⟨by omega, (Core.stop_of_breakpoint hframe).2.2.2⟩

theorem OnPace.resume (h : OnPace k c) : OnPace k c.resume := by
  unfold Console.resume
  split
  · exact ⟨h.cycles_eq, h.frameCycles_lt⟩
  · exact h

theorem OnPace.button (h : OnPace k c) (button : Button) (pressed : Bool) :
    OnPace k (c.setButton button pressed) where
  cycles_eq := (c.core.bus.cycles_perform (.button button pressed)).trans h.cycles_eq
  frameCycles_lt := h.frameCycles_lt

theorem FrameDriven.onPace (h : FrameDriven k c) : OnPace k c := by
  induction h with
  | reset c => exact onPace_reset c
  | complete h hrun ih => exact ih.next hrun
  | stop h hrun ih => exact ih.stop hrun
  | paused h hrun ih => exact eq_of_paused hrun ▸ ih
  | resume h ih => exact ih.resume
  | breakpoints h bs ih => exact ⟨ih.cycles_eq, ih.frameCycles_lt⟩
  | button h button pressed ih => exact ih.button button pressed

/-- Frames keep pace with the bus, without drift: it has always counted the cycles of the completed
frames and those that have passed of the next one, which are less than a frame. A frame that is
completed has gone past its end by less than the longest step, and no cycle is lost when a frame
is taken off. -/
theorem frames_keep_pace (h : FrameDriven k c) :
    c.core.bus.cycles = 69905 * k + c.core.cpu.frameCycles ∧ c.core.cpu.frameCycles < 69905 ∧
    ∀ d, c.runFrame = (.ok .complete, d) →
      d.core.cpu.frameCycles < 44 ∧ k + 1 = d.core.bus.cycles / 69905 ∧
      c.core.bus.cycles ≤ d.core.bus.cycles ∧
      c.core.cpu.frameCycles + (d.core.bus.cycles - c.core.bus.cycles) =
        69905 + d.core.cpu.frameCycles := by
  have hpace := h.onPace
  have hbefore : c.core.bus.cycles = 69905 * k + c.core.cpu.frameCycles := hpace.cycles_eq
  have hlt : c.core.cpu.frameCycles < 69905 := hpace.frameCycles_lt
  refine ⟨hbefore, hlt, ?_⟩
  intro d hrun
  obtain ⟨hrest, hcycles⟩ := hpace.complete hrun
  have hrest : d.core.cpu.frameCycles < 44 := hrest
  have hcycles : c.core.cpu.frameCycles + d.core.bus.cycles =
      c.core.bus.cycles + d.core.cpu.frameCycles + 69905 := hcycles
  refine ⟨hrest, ?_, ?_, ?_⟩
  · omega
  · omega
  · omega

end Console

/-! A frame that is completed. -/

namespace Core

variable {V A : Type} [VideoUnit V] [AudioUnit A]

/-- A machine without a cartridge that has run `n` empty instructions since power-on. -/
structure Emptily (n : Nat) (s : Core V A) : Prop where
  slot_eq : s.bus.slot = none
  storage_eq : s.bus.storage = .zero _
  pc_eq : s.cpu.regs.pc = UInt16.ofNat (0x0100 + n)
  halted_eq : s.cpu.halted = false
  ime_eq : s.cpu.ime = false
  enableDelay_eq : s.cpu.enableDelay = 0
  skip_eq : s.cpu.skipBreakpoint = false

variable {n elapsed : Nat} {breakpoints : Breakpoints} {s : Core V A}

omit [VideoUnit V] [AudioUnit A] in
theorem Emptily.setFrameCycles (h : Emptily n s) (cycles : Nat) :
    Emptily n (s.setFrameCycles cycles) :=
  ⟨h.slot_eq, h.storage_eq, h.pc_eq, h.halted_eq, h.ime_eq, h.enableDelay_eq, h.skip_eq⟩

omit [VideoUnit V] [AudioUnit A] in
theorem Emptily.setSkip_eq (h : Emptily n s) : s.setSkip false = s := by
  rw [← h.skip_eq]
  rfl

/-- What is not stored reads as the empty instruction. -/
theorem Emptily.opcode_eq (h : Emptily n s) (hn : n < 0x7F00) : s.opcode = 0x00 := by
  have hlt : s.cpu.regs.pc < 0x8000 := by
    rw [UInt16.lt_iff_toNat_lt, h.pc_eq, UInt16.toNat_ofNat']
    change (0x0100 + n) % 65536 < 32768
    omega
  have hregion : Region.of s.cpu.regs.pc = .cartridgeRom := if_pos hlt
  unfold opcode Bus.read
  rw [hregion, h.slot_eq]
  unfold Bus.readPlain
  rw [h.storage_eq]
  exact Memory.get_zero _

theorem Emptily.step (h : Emptily n s) (hn : n < 0x7F00) :
    ∃ t, Exec.step s = (.ok 4, t) ∧ Emptily (n + 1) t := by
  have hdecode : Instruction.decode s.opcode = some .nop := by
    rw [h.opcode_eq hn]
    rfl
  have hevent : s.event = .ran .nop := event_of_decode h.halted_eq hdecode
  have hran : s.event ≠ .failed := by
    rw [hevent]
    exact Event.noConfusion
  have hime : (s.after (.ran .nop)).cpu.ime = false := by
    change (s.cpu.ime || s.cpu.enableDelay == 1) = false
    rw [h.ime_eq, h.enableDelay_eq]
    rfl
  have hanswered : (s.after (.ran .nop)).answered = (s.after (.ran .nop)).woken := by
    rw [answered, interrupt?, hime]
    rfl
  have hcost : s.cost = 4 := by
    rw [cost, hevent, hanswered]
    exact Nat.add_sub_cancel_left s.bus.cycles 4
  have hnext : s.next = (s.after (.ran .nop)).woken.charge 4 := by
    rw [next, hcost, if_neg hran, hevent, hanswered]
  refine ⟨s.next, ?_, ?_⟩
  · rw [step_eq, outcome, if_neg hran, hcost]
  · rw [hnext]
    refine ⟨?_, h.storage_eq, ?_, ?_, hime, ?_, h.skip_eq⟩
    · exact congrArg (Slot.step · Bus.accessCycles) h.slot_eq
    · change s.cpu.regs.pc + 1 = _
      rw [h.pc_eq, ← Nat.add_assoc, UInt16.ofNat_add _ 1]
      rfl
    · exact congrArg (· && !(s.after (.ran .nop)).isRequested) h.halted_eq
    · exact congrArg (· - 1) h.enableDelay_eq

theorem runFrameFrom_of_hit (hlt : elapsed < cyclesPerFrame)
    (hhit : (!s.cpu.skipBreakpoint && breakpoints.isHit s.cpu.regs.pc) = true) :
    runFrameFrom breakpoints elapsed s =
      (.ok (some s.cpu.regs.pc), s.setFrameCycles elapsed) := by
  rw [runFrameFrom, if_pos hlt, if_pos hhit]

theorem runFrameFrom_of_step {taken : Nat} {t : Core V A} (hlt : elapsed < cyclesPerFrame)
    (hmiss : breakpoints.isHit s.cpu.regs.pc = false)
    (hstep : Exec.step (s.setSkip false) = (.ok taken, t)) :
    runFrameFrom breakpoints elapsed s = runFrameFrom breakpoints (elapsed + taken) t := by
  rw [runFrameFrom, if_pos hlt, if_neg (by simp [hmiss]), hstep]

/-- The instruction that ends the first frame goes three cycles past its end. -/
theorem Emptily.frame (h : Emptily n s) (hn : n ≤ 17477) :
    ∃ t, runFrameFrom .empty (4 * n) s = (.ok none, t) ∧ Emptily 17477 t ∧
      t.cpu.frameCycles = 3 := by
  obtain ⟨left, hleft⟩ := Nat.exists_eq_add_of_le hn
  induction left generalizing n s with
  | zero =>
    obtain rfl : n = 17477 := hleft.symm
    refine ⟨s.setFrameCycles 3, ?_, h.setFrameCycles 3, rfl⟩
    rw [runFrameFrom, if_neg (by decide)]
    rfl
  | succ left ih =>
    obtain ⟨t, hstep, ht⟩ := h.step (by omega)
    have hlt : 4 * n < cyclesPerFrame := by
      change 4 * n < 69905
      omega
    rw [runFrameFrom_of_step hlt rfl (h.setSkip_eq.symm ▸ hstep)]
    exact ih ht (by omega) (by omega)

end Core

namespace Console

variable {c : Console} {n : Nat}

theorem runFrame_of_complete {t : Core Lcd Sound} (hpaused : c.pausedAt = none)
    (hrun : c.core.runFrame c.breakpoints = (.ok none, t)) :
    c.runFrame = (.ok .complete, { c with core := t }) := by
  rw [runFrame, hpaused, hrun]

theorem runFrame_of_stop {pc : UInt16} {t : Core Lcd Sound} (hpaused : c.pausedAt = none)
    (hrun : c.core.runFrame c.breakpoints = (.ok (some pc), t)) :
    c.runFrame = (.ok (.breakpoint pc), { c with core := t, pausedAt := some pc }) := by
  rw [runFrame, hpaused, hrun]

/-- The second frame of a console without a cartridge, with a breakpoint at its second
instruction: the three cycles past the end of the first one and the four before the stop have been
kept. -/
theorem frames_keep_pace_secondFrame :
    ∃ c d, (powerOn .emulated).reset.runFrame = (.ok .complete, c) ∧
      { c with breakpoints := (Breakpoints.empty.add 0x4546).1 }.runFrame =
        (.ok (.breakpoint 0x4546), d) ∧
      d.resume.core.bus.cycles = 69912 ∧ d.resume.core.cpu.frameCycles = 7 ∧
      ∀ e, d.resume.runFrame = (.ok .complete, e) → e.core.bus.cycles / 69905 = 2 := by
  have hnew : Core.Emptily 0 (powerOn .emulated).reset.core := ⟨rfl, rfl, rfl, rfl, rfl, rfl, rfl⟩
  obtain ⟨t, hframe, ht, hrest⟩ := hnew.frame (by decide)
  have hcomplete := runFrame_of_complete (c := (powerOn .emulated).reset) rfl hframe
  obtain ⟨u, hstep, hu⟩ := ht.step (by decide)
  have hstop : t.runFrame (Breakpoints.empty.add 0x4546).1 =
      (.ok (some 0x4546), u.setFrameCycles 7) := by
    have hbare : t.setSkip false = t := ht.setSkip_eq
    have hmiss : (Breakpoints.empty.add 0x4546).1.isHit t.cpu.regs.pc = false := by
      rw [ht.pc_eq]
      decide
    have hhit : (!u.cpu.skipBreakpoint && (Breakpoints.empty.add 0x4546).1.isHit u.cpu.regs.pc) =
        true := by
      rw [hu.skip_eq, hu.pc_eq]
      decide
    have hpc : u.cpu.regs.pc = 0x4546 := hu.pc_eq
    rw [Core.runFrame, hrest, Core.runFrameFrom_of_step (by decide) hmiss (hbare.symm ▸ hstep),
      Core.runFrameFrom_of_hit (by decide) hhit, hpc]
  let marked : Console :=
    { (powerOn .emulated).reset with core := t, breakpoints := (Breakpoints.empty.add 0x4546).1 }
  have hstopped := runFrame_of_stop (c := marked) rfl hstop
  refine ⟨_, _, hcomplete, hstopped, ?_⟩
  have hdriven :
      FrameDriven 1 { marked with core := u.setFrameCycles 7, pausedAt := some 0x4546 }.resume :=
    .resume (.stop (.breakpoints (.complete (.reset _) hcomplete) _) hstopped)
  obtain ⟨hcycles, -, hnext⟩ := frames_keep_pace hdriven
  exact ⟨hcycles, rfl, fun e he => (hnext e he).2.1.symm⟩

end Console

end Handheld
