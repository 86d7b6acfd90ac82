import Handheld.Proofs.Transition
import Handheld.Proofs.Timer.Access

/-!
The cycles that the processor spends. The delays of its scripts are whole machine cycles, so
every step, failed or not, is a run of charges.
-/
namespace Handheld

namespace Script

/-- Every delay is a number of whole machine cycles. -/
def Paced : Script → Prop
  | done _ => True
  | fetch _ next => ∀ v, (next v).Paced
  | read _ next => ∀ v, (next v).Paced
  | write _ _ next => next.Paced
  | wait n next => Bus.accessCycles ∣ n ∧ next.Paced

variable {V A : Type} [VideoUnit V] [AudioUnit A]

theorem Paced.timed_play {script : Script} (h : script.Paced) {cycles : List Timer}
    {b : Bus V A} (hb : Bus.Timed cycles b) :
    ∃ more, Bus.Timed (cycles ++ more) (script.play b).2 := by
  induction script generalizing cycles b with
  | done r => exact ⟨[], by rwa [List.append_nil]⟩
  | fetch addr next ih =>
    obtain ⟨more, hmore⟩ := ih _ (h _) (hb.charge (.load addr))
    exact ⟨_, List.append_assoc .. ▸ hmore⟩
  | read addr next ih =>
    obtain ⟨more, hmore⟩ := ih _ (h _) (hb.charge (.load addr))
    exact ⟨_, List.append_assoc .. ▸ hmore⟩
  | write addr v next ih =>
    obtain ⟨more, hmore⟩ := ih h (hb.charge (.store addr v))
    exact ⟨_, List.append_assoc .. ▸ hmore⟩
  | wait n next ih =>
    obtain ⟨⟨machineCycles, rfl⟩, hnext⟩ := h
    obtain ⟨more, hmore⟩ := ih hnext (hb.charge (.delay machineCycles))
    exact ⟨_, List.append_assoc .. ▸ hmore⟩

end Script

namespace Manual

open Script

theorem paced_target (o : Operand) (r : Registers) (v : UInt8) : (target o r v).Paced := by
  cases o <;> exact trivial

theorem paced_source (o : Operand) (r : Registers) {next : UInt8 → Script}
    (h : ∀ v, (next v).Paced) : (source o r next).Paced := by
  cases o with
  | reg x => exact h _
  | atHL => exact h

theorem paced_extendedScript (op : UInt8) (r : Registers) : (extendedScript op r).Paced := by
  unfold extendedScript
  apply paced_source
  intro v
  split
  · exact paced_target _ _ _
  · exact trivial
  · exact paced_target _ _ _
  · exact paced_target _ _ _

theorem dvd_four : Bus.accessCycles ∣ 4 := Nat.dvd_refl 4

theorem dvd_eight : Bus.accessCycles ∣ 8 := ⟨2, rfl⟩

theorem paced_ret (r : Registers) : (ret r).Paced := fun _ _ => ⟨dvd_four, trivial⟩

theorem paced_call (r : Registers) (addr : UInt16) : (call r addr).Paced := ⟨dvd_four, trivial⟩

/-- A script that depends on a condition. -/
theorem paced_ite {p : Prop} [Decidable p] {first next : Script} (hfirst : first.Paced)
    (hnext : next.Paced) : (if p then first else next).Paced := by
  split
  · exact hfirst
  · exact hnext

theorem paced_operation (i : Instruction) (r : Registers) : (operation i r).Paced := by
  cases i with
  | increment o | decrement o =>
    simp only [operation]
    exact paced_source o _ fun v => paced_target o _ _
  | loadImmediate o => exact fun v => paced_target o _ v
  | load dst src => exact paced_source src _ fun v => paced_target dst _ v
  | alu op o =>
    simp only [operation]
    exact paced_source o _ fun v => (trivial : (done _).Paced)
  | extended => exact fun op => paced_extendedScript op _
  | jumpRelative c => exact fun n => paced_ite ⟨dvd_four, trivial⟩ trivial
  | ret c =>
    cases c with
    | none => exact paced_ret _
    | some c => exact ⟨dvd_four, paced_ite (paced_ret _) trivial⟩
  | jump c => exact fun low high => paced_ite ⟨dvd_four, trivial⟩ trivial
  | call c => exact fun low high => paced_ite (paced_call _ _) trivial
  | restart slot => exact paced_call _ _
  | retEnable => exact paced_ret _
  | addToHL | incrementWord | decrementWord | loadSPFromHL | push =>
    exact ⟨dvd_four, trivial⟩
  | loadHLFromSP => exact fun n => ⟨dvd_four, trivial⟩
  | addToSP => exact fun n => ⟨dvd_eight, trivial⟩
  | stop | aluImmediate | storeHigh => exact fun n => trivial
  | loadHigh | storeSP | loadWord | storeDirect | pop => exact fun low high => trivial
  | loadDirect => exact fun low high v => trivial
  | loadFrom | loadHighC => exact fun v => trivial
  | _ => exact trivial

theorem paced_script (i : Instruction) (r : Registers) : (script i r).Paced :=
  fun _ => paced_operation i r

end Manual

namespace Core

variable {V A : Type} [VideoUnit V] [AudioUnit A] {cycles : List Timer}

theorem timed_after {s : Core V A} (h : Bus.Timed cycles s.bus) (e : Event) :
    ∃ more, Bus.Timed (cycles ++ more) (s.after e).bus := by
  cases e with
  | idle => exact ⟨_, h.charge (.delay 1)⟩
  | ran i => exact (Manual.paced_script i s.cpu.regs).timed_play h
  | failed => exact ⟨_, h.charge (.load s.cpu.regs.pc)⟩

theorem paced_interruptScript (i : Interrupt) (r : Registers) : (interruptScript i r).Paced :=
  ⟨Manual.dvd_four, trivial⟩

theorem timed_interrupted {s : Core V A} (h : Bus.Timed cycles s.bus) (i : Interrupt) :
    ∃ more, Bus.Timed (cycles ++ more) (s.interrupted i).bus := by
  have hwaited := h.charge (.delay 2)
  have hcleared : Bus.Timed _
      { s.bus.charge (.delay 2) with
        requested := (s.bus.charge (.delay 2)).requested &&& ~~~i.mask } := hwaited.aside rfl
  obtain ⟨more, hmore⟩ := (paced_interruptScript i s.cpu.regs).timed_play hcleared
  exact ⟨_, List.append_assoc .. ▸ hmore⟩

theorem timed_answered {s : Core V A} (h : Bus.Timed cycles s.bus) :
    ∃ more, Bus.Timed (cycles ++ more) s.answered.bus := by
  unfold answered
  cases s.interrupt? with
  | none => exact ⟨[], by rwa [List.append_nil]⟩
  | some i => exact timed_interrupted (s := s.woken) h i

/-- A step of the processor is a run of charges. -/
theorem timed_step {s : Core V A} (h : Bus.Timed cycles s.bus) :
    ∃ more, Bus.Timed (cycles ++ more) (Exec.step s).2.bus := by
  rw [step_eq, next]
  by_cases hfailed : s.event = .failed
  · rw [if_pos hfailed]
    exact timed_after h .failed
  · rw [if_neg hfailed]
    obtain ⟨first, hfirst⟩ := timed_after h s.event
    obtain ⟨more, hmore⟩ := timed_answered hfirst
    exact ⟨_, List.append_assoc .. ▸ hmore⟩

end Core

end Handheld
