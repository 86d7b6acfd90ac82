import Handheld.Proofs.Transition
import Handheld.Frame

/-!
What is done to a bus, recorded. A step of the processor and a frame do a list of acts, one after
the other, and leave the bus as these acts do. A run is recorded from the last reset on, together
with whatever the host does between the steps.
-/
namespace Handheld

namespace Bus

/-- What is done to a bus. A charged read is recorded with the byte that it returns. A charged
write is a write and the cycles of an access. -/
inductive Act
  | load (addr : UInt16) (v : UInt8)
  | write (addr : UInt16) (v : UInt8)
  | pass (cycles : Nat)
  /-- A request is taken back because its interrupt is served. -/
  | clear (i : Interrupt)
  | button (button : Button) (pressed : Bool)
  deriving DecidableEq

/-- The cycles that pass in an act. -/
def Act.cycles : Act → Nat
  | load _ _ => accessCycles
  | pass n => n
  | _ => 0

variable {V A : Type} [VideoUnit V] [AudioUnit A]

def perform (b : Bus V A) : Act → Bus V A
  | .load _ _ => b.advance accessCycles
  | .write addr v => b.write addr v
  | .pass n => b.advance n
  | .clear i => { b with requested := b.requested &&& ~~~i.mask }
  | .button button pressed => b.setButton button pressed

theorem perform_pass (b : Bus V A) (n : Nat) : b.perform (.pass n) = b.advance n := rfl

theorem perform_clear (b : Bus V A) (i : Interrupt) :
    b.perform (.clear i) = { b with requested := b.requested &&& ~~~i.mask } := rfl

def performAll (b : Bus V A) : List Act → Bus V A
  | [] => b
  | a :: acts => (b.perform a).performAll acts

/-- Every read of the acts returns the byte that it is recorded with. -/
def Honest (b : Bus V A) : List Act → Prop
  | [] => True
  | .load addr v :: acts => v = b.read addr ∧ (b.perform (.load addr v)).Honest acts
  | a :: acts => (b.perform a).Honest acts

theorem honest_pass {b : Bus V A} {n : Nat} {acts : List Act} :
    b.Honest (.pass n :: acts) ↔ (b.perform (.pass n)).Honest acts := Iff.rfl

theorem honest_clear {b : Bus V A} {i : Interrupt} {acts : List Act} :
    b.Honest (.clear i :: acts) ↔ (b.perform (.clear i)).Honest acts := Iff.rfl

theorem honest_load (b : Bus V A) (addr : UInt16) : b.Honest [.load addr (b.read addr)] :=
  ⟨rfl, trivial⟩

theorem performAll_append (b : Bus V A) (first next : List Act) :
    b.performAll (first ++ next) = (b.performAll first).performAll next := by
  induction first generalizing b with
  | nil => rfl
  | cons a first ih => exact ih (b.perform a)

theorem honest_append {b : Bus V A} {first next : List Act} :
    b.Honest (first ++ next) ↔ b.Honest first ∧ (b.performAll first).Honest next := by
  induction first generalizing b with
  | nil => exact (iff_of_eq (true_and _)).symm
  | cons a first ih =>
    cases a with
    | load addr v => exact (and_congr_right fun _ => ih).trans and_assoc.symm
    | _ => exact ih

/-- The cycles of the bus are those of the acts. -/
theorem cycles_perform (b : Bus V A) (a : Act) : (b.perform a).cycles = b.cycles + a.cycles := by
  cases a with
  | write addr v => exact cycles_write b addr v
  | button button pressed =>
    change (b.setButton button pressed).cycles = b.cycles
    unfold setButton
    dsimp only
    split <;> rfl
  | _ => rfl

/-- The cycles that pass in some acts. -/
def total (acts : List Act) : Nat := (acts.map Act.cycles).sum

theorem total_append (first next : List Act) :
    total (first ++ next) = total first + total next := by
  rw [total, List.map_append, List.sum_append]
  rfl

theorem cycles_performAll (b : Bus V A) (acts : List Act) :
    (b.performAll acts).cycles = b.cycles + total acts := by
  induction acts generalizing b with
  | nil => rfl
  | cons a acts ih =>
    rw [performAll, ih, cycles_perform, Nat.add_assoc]
    rfl

/-- What is recorded of a bus since its last reset. What the host does without an act is an
aside, of which some kinds are admitted. -/
inductive Traced (Aside : Bus V A → Bus V A → Prop) : List Act → Bus V A → Prop
  | reset (b : Bus V A) : Traced Aside [] b.reset
  | act {acts : List Act} {b : Bus V A} (h : Traced Aside acts b) (a : Act)
      (honest : b.Honest [a]) : Traced Aside (acts ++ [a]) (b.perform a)
  | aside {acts : List Act} {b b' : Bus V A} (h : Traced Aside acts b) (haside : Aside b b') :
      Traced Aside acts b'

theorem Traced.performAll {Aside : Bus V A → Bus V A → Prop} {acts : List Act} {b : Bus V A}
    (h : Traced Aside acts b) {more : List Act} (honest : b.Honest more) :
    Traced Aside (acts ++ more) (b.performAll more) := by
  induction more generalizing acts b with
  | nil =>
    rw [List.append_nil]
    exact h
  | cons a more ih =>
    rw [← List.singleton_append] at honest ⊢
    obtain ⟨hfirst, hmore⟩ := honest_append.mp honest
    rw [← List.append_assoc]
    exact ih (h.act a hfirst) hmore

end Bus

open Bus (Act)

namespace Script

variable {V A : Type} [VideoUnit V] [AudioUnit A]

/-- What a script does to a bus. -/
def acts : Script → Bus V A → List Act
  | done _, _ => []
  | fetch addr next, b =>
    .load addr (b.read addr) :: (next (b.read addr)).acts (b.advance Bus.accessCycles)
  | read addr next, b =>
    .load addr (b.read addr) :: (next (b.read addr)).acts (b.advance Bus.accessCycles)
  | write addr v next, b =>
    .write addr v :: .pass Bus.accessCycles ::
      next.acts ((b.write addr v).advance Bus.accessCycles)
  | wait n next, b => .pass n :: next.acts (b.advance n)

theorem play_eq_performAll (script : Script) (b : Bus V A) :
    (script.play b).2 = b.performAll (script.acts b) := by
  induction script generalizing b with
  | done r => rfl
  | fetch addr next ih => exact ih _ _
  | read addr next ih => exact ih _ _
  | write addr v next ih => exact ih _
  | wait n next ih => exact ih _

theorem honest_acts (script : Script) (b : Bus V A) : b.Honest (script.acts b) := by
  induction script generalizing b with
  | done r => exact trivial
  | fetch addr next ih => exact ⟨rfl, ih _ _⟩
  | read addr next ih => exact ⟨rfl, ih _ _⟩
  | write addr v next ih => exact ih _
  | wait n next ih => exact ih _

/-- A script takes no request back. -/
theorem clear_notMem_acts (i : Interrupt) (script : Script) (b : Bus V A) :
    .clear i ∉ script.acts b := by
  induction script generalizing b with
  | done r => exact List.not_mem_nil
  | fetch addr next ih => exact List.not_mem_cons_of_ne_of_not_mem nofun (ih _ _)
  | read addr next ih => exact List.not_mem_cons_of_ne_of_not_mem nofun (ih _ _)
  | write addr v next ih =>
    exact List.not_mem_cons_of_ne_of_not_mem nofun
      (List.not_mem_cons_of_ne_of_not_mem nofun (ih _))
  | wait n next ih => exact List.not_mem_cons_of_ne_of_not_mem nofun (ih _)

end Script

namespace Core

variable {V A : Type} [VideoUnit V] [AudioUnit A]

/-- What a step does before requests are answered. -/
def eventActs (s : Core V A) : List Act :=
  match s.event with
  | .idle => [.pass machineCycle]
  | .ran i => (Manual.script i s.cpu.regs).acts s.bus
  | .failed => [.load s.cpu.regs.pc s.opcode]

/-- What the answer to requests does. -/
def answerActs (s : Core V A) : List Act :=
  match s.interrupt? with
  | some i =>
    .pass (2 * machineCycle) :: .clear i ::
      (interruptScript i s.cpu.regs).acts
        ((s.bus.perform (.pass (2 * machineCycle))).perform (.clear i))
  | none => []

/-- What a step does to the bus. -/
def acts (s : Core V A) : List Act :=
  if s.event = .failed then s.eventActs else s.eventActs ++ (s.after s.event).answerActs

theorem bus_after (s : Core V A) : (s.after s.event).bus = s.bus.performAll s.eventActs := by
  unfold eventActs
  cases s.event with
  | idle => rfl
  | ran i => exact (Manual.script i s.cpu.regs).play_eq_performAll s.bus
  | failed => rfl

/-- An interrupt is taken by a pause, by taking its request back, and by its script. -/
theorem bus_interrupted (i : Interrupt) (s : Core V A) :
    (s.interrupted i).bus =
      ((interruptScript i s.cpu.regs).play
        ((s.bus.perform (.pass (2 * machineCycle))).perform (.clear i))).2 := by
  rw [Bus.perform_pass, Bus.perform_clear]
  rfl

theorem bus_answered (s : Core V A) : s.answered.bus = s.bus.performAll s.answerActs := by
  unfold answered answerActs
  cases s.interrupt? with
  | none => rfl
  | some i =>
    dsimp only
    rw [bus_interrupted, Script.play_eq_performAll]
    rfl

/-- A step leaves the bus as its acts do. -/
theorem bus_step (s : Core V A) : (Exec.step s).2.bus = s.bus.performAll s.acts := by
  rw [step_eq, next, acts]
  by_cases hfailed : s.event = .failed
  · rw [if_pos hfailed, if_pos hfailed, ← bus_after, hfailed]
  · rw [if_neg hfailed, if_neg hfailed, Bus.performAll_append, ← bus_after]
    exact bus_answered _

theorem honest_eventActs (s : Core V A) : s.bus.Honest s.eventActs := by
  unfold eventActs
  cases s.event with
  | idle => exact trivial
  | ran i => exact (Manual.script i s.cpu.regs).honest_acts s.bus
  | failed => exact ⟨rfl, trivial⟩

theorem honest_answerActs (s : Core V A) : s.bus.Honest s.answerActs := by
  unfold answerActs
  cases s.interrupt? with
  | none => exact trivial
  | some i =>
    dsimp only
    rw [Bus.honest_pass, Bus.honest_clear]
    exact Script.honest_acts _ _

theorem honest_acts (s : Core V A) : s.bus.Honest s.acts := by
  unfold acts
  split
  · exact s.honest_eventActs
  · refine Bus.honest_append.mpr ⟨s.honest_eventActs, ?_⟩
    rw [← bus_after]
    exact honest_answerActs _

/-- A step takes back the request of the interrupt that it serves, and no other. -/
theorem clear_mem_acts_iff (s : Core V A) (i : Interrupt) :
    .clear i ∈ s.acts ↔ s.taken? = some i := by
  have hevent : .clear i ∉ s.eventActs := by
    unfold eventActs
    cases s.event with
    | idle => simp
    | ran instruction => exact Script.clear_notMem_acts i _ s.bus
    | failed => simp
  have hanswer (t : Core V A) : .clear i ∈ t.answerActs ↔ t.interrupt? = some i := by
    unfold answerActs
    cases t.interrupt? with
    | none => simp
    | some j => simp [Script.clear_notMem_acts, eq_comm]
  rw [acts, taken?]
  by_cases hfailed : s.event = .failed
  · simp [hfailed, hevent]
  · rw [if_neg hfailed, if_neg hfailed, List.mem_append, hanswer]
    exact or_iff_right hevent

/-- What a frame does to the bus from a moment at which `elapsed` cycles have passed. -/
def frameActs (breakpoints : Breakpoints) (elapsed : Nat) (s : Core V A) : List Act :=
  if elapsed < cyclesPerFrame then
    if !s.cpu.skipBreakpoint && breakpoints.isHit s.cpu.regs.pc then []
    else
      match _h : Exec.step (s.setSkip false) with
      | (.ok taken, t) => (s.setSkip false).acts ++ frameActs breakpoints (elapsed + taken) t
      | (.error _, _) => (s.setSkip false).acts
  else []
  termination_by cyclesPerFrame - elapsed
  decreasing_by
    have := Exec.step_pos _h
    omega

/-- What is recorded of a machine since its last reset. What else the host does to the processor
is not recorded. -/
inductive Traced (Aside : Bus V A → Bus V A → Prop) : List Act → Core V A → Prop
  | reset (cpu : Cpu) (b : Bus V A) : Traced Aside [] ⟨cpu, b.reset⟩
  | step {acts : List Act} {s : Core V A} (h : Traced Aside acts s) :
      Traced Aside (acts ++ s.acts) (Exec.step s).2
  | frame {acts : List Act} {s : Core V A} (h : Traced Aside acts s) (breakpoints : Breakpoints) :
      Traced Aside (acts ++ s.frameActs breakpoints s.cpu.frameCycles) (s.runFrame breakpoints).2
  | access {acts : List Act} {s : Core V A} (h : Traced Aside acts s) (a : Act)
      (honest : s.bus.Honest [a]) : Traced Aside (acts ++ [a]) { s with bus := s.bus.perform a }
  | aside {acts : List Act} {s : Core V A} (h : Traced Aside acts s) (cpu : Cpu) {b : Bus V A}
      (haside : Aside s.bus b) : Traced Aside acts ⟨cpu, b⟩

variable {Aside : Bus V A → Bus V A → Prop} {acts : List Act} {s : Core V A}

theorem traced_step (h : Bus.Traced Aside acts s.bus) :
    Bus.Traced Aside (acts ++ s.acts) (Exec.step s).2.bus := by
  rw [bus_step]
  exact h.performAll s.honest_acts

theorem frameActs_of_step {breakpoints : Breakpoints} {elapsed : Nat} {s t : Core V A}
    {result : Except CpuError Nat} (hlt : elapsed < cyclesPerFrame)
    (hmiss : ¬(!s.cpu.skipBreakpoint && breakpoints.isHit s.cpu.regs.pc) = true)
    (hstep : Exec.step (s.setSkip false) = (result, t)) :
    s.frameActs breakpoints elapsed =
      (s.setSkip false).acts ++
        match result with
        | .ok taken => t.frameActs breakpoints (elapsed + taken)
        | .error _ => [] := by
  rw [frameActs, if_pos hlt, if_neg hmiss]
  split
  · next taken t' hstep' =>
    obtain ⟨rfl, rfl⟩ := Prod.mk.inj (hstep.symm.trans hstep')
    rfl
  · next e t' hstep' =>
    obtain ⟨rfl, rfl⟩ := Prod.mk.inj (hstep.symm.trans hstep')
    exact (List.append_nil _).symm

omit [VideoUnit V] [AudioUnit A] in
theorem bus_setFrameCycles (s : Core V A) (n : Nat) : (s.setFrameCycles n).bus = s.bus := rfl

omit [VideoUnit V] [AudioUnit A] in
theorem bus_setSkip (s : Core V A) (skip : Bool) : (s.setSkip skip).bus = s.bus := rfl

/-- A frame leaves the bus as its acts do. -/
theorem bus_frame (breakpoints : Breakpoints) (elapsed : Nat) (s : Core V A) :
    (runFrameFrom breakpoints elapsed s).2.bus =
      s.bus.performAll (s.frameActs breakpoints elapsed) := by
  fun_induction runFrameFrom breakpoints elapsed s with
  | case1 elapsed s hlt pc hhit =>
    rw [frameActs, if_pos hlt, if_pos hhit]
    rfl
  | case2 elapsed s hlt pc hmiss taken t hstep ih =>
    have hbus : t.bus = s.bus.performAll (s.setSkip false).acts := by
      rw [← bus_setSkip s false, ← bus_step, hstep]
    rw [ih, hbus, frameActs_of_step hlt hmiss hstep, Bus.performAll_append]
  | case3 elapsed s hlt pc hmiss e t hstep =>
    have hbus : t.bus = s.bus.performAll (s.setSkip false).acts := by
      rw [← bus_setSkip s false, ← bus_step, hstep]
    rw [frameActs_of_step hlt hmiss hstep, List.append_nil, bus_setFrameCycles]
    exact hbus
  | case4 elapsed s hle =>
    rw [frameActs, if_neg hle, bus_setFrameCycles]
    rfl

theorem traced_frame (breakpoints : Breakpoints) (elapsed : Nat) (s : Core V A) :
    ∀ acts, Bus.Traced Aside acts s.bus →
      Bus.Traced Aside (acts ++ s.frameActs breakpoints elapsed)
        (runFrameFrom breakpoints elapsed s).2.bus := by
  fun_induction runFrameFrom breakpoints elapsed s with
  | case1 elapsed s hlt pc hhit =>
    intro acts h
    rw [frameActs, if_pos hlt, if_pos hhit, List.append_nil]
    exact h
  | case2 elapsed s hlt pc hmiss taken t hstep ih =>
    intro acts h
    have hnext := traced_step (s := s.setSkip false) h
    rw [hstep] at hnext
    rw [frameActs_of_step hlt hmiss hstep, ← List.append_assoc]
    exact ih _ hnext
  | case3 elapsed s hlt pc hmiss e t hstep =>
    intro acts h
    have hnext := traced_step (s := s.setSkip false) h
    rw [hstep] at hnext
    rw [frameActs_of_step hlt hmiss hstep, List.append_nil]
    exact hnext
  | case4 elapsed s hle =>
    intro acts h
    rw [frameActs, if_neg hle, List.append_nil, bus_setFrameCycles]
    exact h

/-- The record of a machine is that of its bus. -/
theorem Traced.bus (h : Traced Aside acts s) : Bus.Traced Aside acts s.bus := by
  induction h with
  | reset cpu b => exact Bus.Traced.reset b
  | @step acts s h ih => exact traced_step ih
  | @frame acts s h breakpoints ih => exact traced_frame breakpoints s.cpu.frameCycles s acts ih
  | access h a honest ih => exact ih.act a honest
  | aside h cpu haside ih => exact ih.aside haside

end Core

end Handheld
