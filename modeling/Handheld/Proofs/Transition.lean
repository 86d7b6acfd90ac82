import Handheld.Proofs.Manual.Execution
import Handheld.Step

/-!
A step of the processor as one function of the state. What a step begins with is an event:
an idle machine cycle, an instruction of the manual or a failure. Whatever the event but a
failure, requests are then answered and the cycles are counted.
-/
namespace Handheld

/-- What a step does before requests are answered. -/
inductive Event
  | idle
  | ran (i : Instruction)
  | failed
  deriving DecidableEq

namespace Core

variable {V A : Type} [VideoUnit V] [AudioUnit A]

/-- The byte at the program counter. -/
def opcode (s : Core V A) : UInt8 := s.bus.read s.cpu.regs.pc

/-- The byte after the opcode, as a fetch finds it once the opcode has been taken. -/
def second (s : Core V A) : UInt8 := (s.bus.advance Bus.accessCycles).read (s.cpu.regs.pc + 1)

def event (s : Core V A) : Event :=
  if s.cpu.halted then .idle
  else
    match Instruction.decode s.opcode with
    | some i => .ran i
    | none => .failed

/-- The script of an instruction at the program counter, played. -/
def played (i : Instruction) (s : Core V A) : Registers × Bus V A :=
  (Manual.script i s.cpu.regs).play s.bus

/-- The state after an event. -/
def after : Event → Core V A → Core V A
  | .idle, s => { s with bus := s.bus.advance machineCycle }
  | .ran i, s =>
    { cpu := Manual.control i { s.cpu with regs := (s.played i).1 }
      bus := (s.played i).2 }
  | .failed, s =>
    { cpu := { s.cpu with regs := { s.cpu.regs with pc := s.cpu.regs.pc + 1 } }
      bus := s.bus.advance Bus.accessCycles }

/-- The interrupt that the processor takes now, if any. -/
def interrupt? (s : Core V A) : Option Interrupt :=
  if s.cpu.ime then Interrupt.next? (s.bus.requested &&& 0x1F &&& s.bus.enabled) else none

/-- Whether some source has made a request, enabled or not. -/
def isRequested (s : Core V A) : Bool := s.bus.requested &&& 0x1F != 0

/-- A request ends a halt. -/
def woken (s : Core V A) : Core V A :=
  { s with cpu := { s.cpu with halted := s.cpu.halted && !s.isRequested } }

/-- The stack and the program counter of an interrupt. -/
def interruptScript (i : Interrupt) (r : Registers) : Script :=
  Manual.push r r.pc fun r => .wait machineCycle (.done { r with pc := i.vector })

/-- The state after an interrupt is taken. -/
def interrupted (i : Interrupt) (s : Core V A) : Core V A :=
  let bus := s.bus.advance (2 * machineCycle)
  let played := (interruptScript i s.cpu.regs).play
    { bus with requested := bus.requested &&& ~~~i.mask }
  { cpu := { s.cpu with regs := played.1, ime := false }, bus := played.2 }

/-- The state after requests are answered. -/
def answered (s : Core V A) : Core V A :=
  match s.interrupt? with
  | some i => s.woken.interrupted i
  | none => s.woken

/-- Counts cycles as taken by the processor. -/
def charge (taken : Nat) (s : Core V A) : Core V A :=
  { s with cpu := { s.cpu with cycles := s.cpu.cycles + taken } }

/-- The interrupt that a step from this state takes, if any. -/
def taken? (s : Core V A) : Option Interrupt :=
  if s.event = .failed then none else (s.after s.event).interrupt?

/-- The cycles of a step that does not fail. -/
def cost (s : Core V A) : Nat := (s.after s.event).answered.bus.cycles - s.bus.cycles

/-- The state after a step, failed or not. -/
def next (s : Core V A) : Core V A :=
  if s.event = .failed then s.after .failed else (s.after s.event).answered.charge s.cost

/-- What a step gives. -/
def outcome (s : Core V A) : Except CpuError Nat :=
  if s.event = .failed then .error (.unknownOpcode s.opcode s.cpu.regs.pc) else .ok s.cost

theorem event_eq_failed_iff (s : Core V A) :
    s.event = .failed ↔ s.cpu.halted = false ∧ Instruction.decode s.opcode = none := by
  rw [event]
  cases s.cpu.halted <;> cases Instruction.decode s.opcode <;> simp

theorem event_of_decode {s : Core V A} {i : Instruction} (hrunning : s.cpu.halted = false)
    (hop : Instruction.decode s.opcode = some i) : s.event = .ran i := by
  simp [event, hrunning, hop]

theorem event_of_halted {s : Core V A} (hhalted : s.cpu.halted = true) : s.event = .idle := by
  simp [event, hhalted]

theorem next?_zero : Interrupt.next? 0 = none := by decide

omit [VideoUnit V] [AudioUnit A] in
/-- An interrupt needs a request. -/
theorem interrupt?_of_not_isRequested {s : Core V A} (h : s.isRequested = false) :
    s.interrupt? = none := by
  have hzero : s.bus.requested &&& 0x1F = 0 := by simpa [isRequested] using h
  rw [interrupt?, hzero, UInt8.zero_and, next?_zero, ite_self]

section Unfold

attribute [local irreducible] Bus.advance Bus.read Bus.write Word.join

theorem dispatch_apply (i : Interrupt) (s : Core V A) :
    Exec.dispatch i s = ((), s.interrupted i) := rfl

theorem serveInterrupts_apply (s : Core V A) : Exec.serveInterrupts s = ((), s.answered) := by
  have hunfold : Exec.serveInterrupts s =
      if s.isRequested then
        (match s.interrupt? with
          | some i => Exec.dispatch i
          | none => pure ()) { s with cpu := { s.cpu with halted := false } }
      else ((), s) := by
    unfold Exec.serveInterrupts
    rw [Exec.bind_apply]
    change (if s.isRequested then _ else _ : Exec V A Unit) s = _
    cases h : s.isRequested
    · rfl
    · rfl
  rw [hunfold]
  cases h : s.isRequested
  · have hwoken : s.woken = s := by simp [woken, h]
    rw [answered, interrupt?_of_not_isRequested h, hwoken]
    rfl
  · have hwoken : s.woken = { s with cpu := { s.cpu with halted := false } } := by
      simp [woken, h]
    rw [answered, hwoken]
    cases s.interrupt? with
    | none => rfl
    | some i => exact dispatch_apply i _

theorem fetch_opcode (s : Core V A) : Exec.fetch s = (s.opcode, s.after .failed) := rfl

theorem runNext_of_unused {s : Core V A} (hop : Instruction.decode s.opcode = none) :
    Exec.runNext s = (.error (.unknownOpcode s.opcode s.cpu.regs.pc), s.after .failed) := by
  unfold Exec.runNext
  rw [Exec.bind_apply, Exec.bind_apply]
  dsimp only
  rw [fetch_opcode, hop]
  rfl

theorem runNext_of_decode {s : Core V A} {i : Instruction}
    (hop : Instruction.decode s.opcode = some i) :
    Exec.runNext s = (.ok (), s.after (.ran i)) := by
  have hrun := Manual.follows_run i s.cpu s.cpu.regs (s.bus.advance Bus.accessCycles)
  have hsettle := Manual.settle_switched i { s.cpu with regs := (s.played i).1 }
  unfold Exec.runNext
  rw [Exec.bind_apply, Exec.bind_apply]
  dsimp only
  rw [fetch_opcode, hop]
  simp only [Exec.bind_apply, after]
  rw [hrun]
  change (Except.ok (), (⟨_, _⟩ : Core V A)) = (Except.ok (), (⟨_, _⟩ : Core V A))
  rw [← hsettle]
  rfl

theorem runOrIdle_apply (s : Core V A) :
    Exec.runOrIdle s =
      (if s.event = .failed then .error (.unknownOpcode s.opcode s.cpu.regs.pc) else .ok (),
        s.after s.event) := by
  have hunfold : Exec.runOrIdle s =
      if s.cpu.halted then (.ok (), s.after .idle) else Exec.runNext s := by
    unfold Exec.runOrIdle
    rw [Exec.bind_apply]
    change (if s.cpu.halted then _ else _ : Exec V A (Except CpuError Unit)) s = _
    cases s.cpu.halted
    · rfl
    · rfl
  rw [hunfold, event]
  cases s.cpu.halted
  · cases hop : Instruction.decode s.opcode with
    | none => simp [runNext_of_unused hop]
    | some i => simp [runNext_of_decode hop]
  · simp

/-- A step is its event, the answer to requests and the count of cycles. -/
theorem step_eq (s : Core V A) : Exec.step s = (s.outcome, s.next) := by
  unfold Exec.step Exec.stepFrom
  rw [Exec.bind_apply, runOrIdle_apply, outcome, next]
  by_cases h : s.event = .failed
  · simp only [h, if_true]
    rfl
  · simp only [h, if_false, Exec.bind_apply, serveInterrupts_apply]
    rfl

/-- The interrupt that a step takes is the one that is due after its event. -/
theorem taken?_eq_due? {s : Core V A} (hevent : s.event ≠ .failed) :
    s.taken? = (Exec.due? (Exec.runOrIdle s).2).1 := by
  rw [taken?, if_neg hevent, runOrIdle_apply]
  rfl

end Unfold

end Core

end Handheld
