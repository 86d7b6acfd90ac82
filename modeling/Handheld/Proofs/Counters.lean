import Handheld.Console
import Handheld.Proofs.Activity
import Handheld.Proofs.Manual.Conformance

/-!
The two counters of cycles. The bus counts every cycle when it is charged, and the processor
counts those of a step when the step has succeeded. The two agree until a step fails: its fetch
is charged on the bus and never counted by the processor, and the difference stays until the
console is reset.
-/
namespace Handheld

namespace Core

variable {V A : Type} [VideoUnit V] [AudioUnit A]

/-- The bus has counted `missed` cycles that the processor has not. -/
def Misses (missed : Nat) (s : Core V A) : Prop := s.bus.cycles = s.cpu.cycles + missed

/-- The cycles that are missed for a result: those of the fetch if it is a failure. -/
def missedBy {α : Type} (result : Except CpuError α) : Nat :=
  if result.isOk then 0 else Bus.accessCycles

theorem cpuCycles_after (e : Event) (s : Core V A) : (s.after e).cpu.cycles = s.cpu.cycles := by
  cases e with
  | idle => rfl
  | ran i => exact Manual.cycles_control i _
  | failed => rfl

theorem cpuCycles_answered (s : Core V A) : s.answered.cpu.cycles = s.cpu.cycles := by
  unfold answered
  cases s.interrupt? with
  | none => rfl
  | some i => rfl

/-- Time does not go back in a step. -/
theorem cycles_le_answered (s : Core V A) :
    s.bus.cycles ≤ (s.after s.event).answered.bus.cycles := by
  rw [bus_answered, bus_after, Bus.cycles_performAll, Bus.cycles_performAll]
  omega

variable {missed : Nat} {s : Core V A}

/-- A step that succeeds counts the cycles of its charges, and one that fails counts none. -/
theorem Misses.step (h : s.Misses missed) :
    (Exec.step s).2.Misses (missed + missedBy (Exec.step s).1) := by
  rw [step_eq, outcome, next]
  by_cases hfailed : s.event = .failed
  · rw [if_pos hfailed, if_pos hfailed]
    change s.bus.cycles + Bus.accessCycles = s.cpu.cycles + (missed + Bus.accessCycles)
    rw [h, Nat.add_assoc]
  · have hle := s.cycles_le_answered
    have hcounted : (s.after s.event).answered.cpu.cycles = s.cpu.cycles := by
      rw [cpuCycles_answered, cpuCycles_after]
    rw [if_neg hfailed, if_neg hfailed]
    change (s.after s.event).answered.bus.cycles =
      (s.after s.event).answered.cpu.cycles + s.cost + (missed + 0)
    unfold Misses at h
    rw [hcounted, cost]
    omega

omit [VideoUnit V] [AudioUnit A] in
theorem misses_setFrameCycles (n : Nat) :
    (s.setFrameCycles n).Misses missed ↔ s.Misses missed := Iff.rfl

/-- A frame fails with its last step or not at all. -/
theorem Misses.frame (breakpoints : Breakpoints) (elapsed : Nat) {s : Core V A}
    (h : s.Misses missed) :
    (runFrameFrom breakpoints elapsed s).2.Misses
      (missed + missedBy (runFrameFrom breakpoints elapsed s).1) := by
  fun_induction runFrameFrom breakpoints elapsed s with
  | case1 elapsed s hlt pc hhit => exact h
  | case2 elapsed s hlt pc hmiss taken t hstep ih =>
    have hnext : t.Misses (missed + 0) := by
      have hmissed := Misses.step (s := s.setSkip false) h
      rwa [hstep] at hmissed
    exact ih hnext
  | case3 elapsed s hlt pc hmiss e t hstep =>
    have hmissed := Misses.step (s := s.setSkip false) h
    rwa [hstep] at hmissed
  | case4 elapsed s hle =>
    rw [misses_setFrameCycles]
    exact h

end Core

namespace Console

/-- What a host does with a console. -/
inductive Action
  | step
  | runFrame
  | resume
  | button (button : Button) (pressed : Bool)
  | breakpoints (edit : Breakpoints → Breakpoints)
  | reset

def perform (c : Console) : Action → Console
  | .step => c.step.2
  | .runFrame => c.runFrame.2
  | .resume => c.resume
  | .button button pressed => c.setButton button pressed
  | .breakpoints edit => { c with breakpoints := edit c.breakpoints }
  | .reset => c.reset

def performAll (c : Console) : List Action → Console
  | [] => c
  | a :: actions => (c.perform a).performAll actions

/-- Whether a step fails in an action. -/
def fails (c : Console) : Action → Bool
  | .step => !c.step.1.isOk
  | .runFrame => !c.runFrame.1.isOk
  | _ => false

/-- The number of failed steps since the last reset, `before` of them before the actions. -/
def failures (c : Console) (before : Nat) : List Action → Nat
  | [] => before
  | .reset :: actions => c.reset.failures 0 actions
  | a :: actions => (c.perform a).failures (before + if c.fails a then 1 else 0) actions

open Handheld.Core

theorem misses_reset (c : Console) : c.reset.core.Misses 0 := rfl

theorem misses_step {c : Console} {missed : Nat} (h : c.core.Misses missed) :
    c.step.2.core.Misses (missed + missedBy c.step.1) := h.step

theorem misses_runFrame {c : Console} {missed : Nat} (h : c.core.Misses missed) :
    c.runFrame.2.core.Misses (missed + missedBy c.runFrame.1) := by
  unfold runFrame
  cases c.pausedAt with
  | some pc => exact h
  | none =>
    have hframe := h.frame c.breakpoints c.core.cpu.frameCycles
    change (c.core.runFrame c.breakpoints).2.Misses
      (missed + missedBy (c.core.runFrame c.breakpoints).1) at hframe
    dsimp only
    split
    · next e core hrun =>
      rw [hrun] at hframe
      exact hframe
    · next core hrun =>
      rw [hrun] at hframe
      exact hframe
    · next pc core hrun =>
      rw [hrun] at hframe
      exact hframe

theorem missedBy_eq {α : Type} (result : Except CpuError α) :
    missedBy result = Bus.accessCycles * if !result.isOk then 1 else 0 := by
  cases result <;> rfl

/-- One action, of which a reset starts the count anew. -/
theorem misses_perform {c : Console} {before : Nat}
    (h : c.core.Misses (Bus.accessCycles * before)) {a : Action} (hreset : a ≠ .reset) :
    (c.perform a).core.Misses (Bus.accessCycles * (before + if c.fails a then 1 else 0)) := by
  rw [Nat.mul_add]
  cases a with
  | step =>
    rw [fails, ← missedBy_eq]
    exact misses_step h
  | runFrame =>
    rw [fails, ← missedBy_eq]
    exact misses_runFrame h
  | resume =>
    unfold perform resume
    cases c.pausedAt <;> exact h
  | button button pressed =>
    have hcycles := c.core.bus.cycles_perform (.button button pressed)
    exact hcycles.trans h
  | breakpoints edit => exact h
  | reset => exact absurd rfl hreset

theorem misses_performAll {c : Console} {before : Nat}
    (h : c.core.Misses (Bus.accessCycles * before)) (actions : List Action) :
    (c.performAll actions).core.Misses (Bus.accessCycles * c.failures before actions) := by
  induction actions generalizing c before with
  | nil => exact h
  | cons a actions ih =>
    by_cases hreset : a = .reset
    · subst hreset
      exact ih (misses_reset c)
    · have hnext := ih (misses_perform h hreset)
      cases a with
      | reset => exact absurd rfl hreset
      | _ => exact hnext

/-- Since the last reset the bus has counted the cycles of the processor and four more for each
step that has failed, so that the counters agree as long as no step fails. -/
theorem counters_agree_iff (c : Console) (actions : List Action) :
    let d := c.reset.performAll actions
    d.core.bus.cycles = d.core.cpu.cycles + 4 * c.reset.failures 0 actions ∧
      (d.core.cpu.cycles = d.core.bus.cycles ↔ c.reset.failures 0 actions = 0) := by
  have hmissed : (c.reset.performAll actions).core.Misses (4 * c.reset.failures 0 actions) :=
    misses_performAll (misses_reset c) actions
  refine ⟨hmissed, ?_⟩
  unfold Misses at hmissed
  omega

/-- A cartridge whose program begins with an unused opcode. -/
def unusedOpcode : ByteArray := ⟨(List.replicate 0x100 (0 : UInt8) ++ [0xD3]).toArray⟩

/-- After a step that fails, the processor has counted nothing of the fetch. -/
theorem not_counters_agree :
    ¬∀ (c : Console) (actions : List Action),
      (c.reset.performAll actions).core.cpu.cycles =
        (c.reset.performAll actions).core.bus.cycles := by
  intro hclaim
  have hagree := hclaim ((powerOn .emulated).insertRom unusedOpcode (.fixed 0)) [.step]
  have hcpu : (((powerOn .emulated).insertRom unusedOpcode (.fixed 0)).reset.performAll
      [.step]).core.cpu.cycles = 0 := by decide +kernel
  have hbus : (((powerOn .emulated).insertRom unusedOpcode (.fixed 0)).reset.performAll
      [.step]).core.bus.cycles = 4 := by decide +kernel
  rw [hcpu, hbus] at hagree
  cases hagree

end Console

end Handheld
