import Handheld.Step

/-!
Progress: no instruction takes cycles back, so that a step which succeeds takes at least
one cycle. This is what lets a frame end.
-/
namespace Handheld

open Exec

variable {V A : Type} [VideoUnit V] [AudioUnit A]

theorem Operand.charging_read (o : Operand) : Charging (o.read : Exec V A UInt8) := by
  cases o with
  | reg r => exact charging_regs.bind fun _ => .pure _
  | atHL => exact charging_regs.bind fun _ => charging_load _

theorem Operand.charging_write (o : Operand) (v : UInt8) :
    Charging (o.write v : Exec V A Unit) := by
  cases o with
  | reg r => exact charging_setByte _ _
  | atHL => exact charging_regs.bind fun _ => charging_store _ _

omit [VideoUnit V] [AudioUnit A] in
theorem Pointer.charging_address (p : Pointer) : Charging (p.address : Exec V A UInt16) := by
  refine charging_regs.bind fun _ => ?_
  cases p with
  | bc => exact .pure _
  | de => exact .pure _
  | hlUp => exact (charging_setWord _ _).bind fun _ => .pure _
  | hlDown => exact (charging_setWord _ _).bind fun _ => .pure _

omit [VideoUnit V] [AudioUnit A] in
theorem charging_conditionHolds (c : Option Condition) :
    Charging (conditionHolds c : Exec V A Bool) :=
  charging_regs.bind fun _ => .pure _

omit [VideoUnit V] [AudioUnit A] in
theorem charging_ite {c : Prop} [Decidable c] {act other : Exec V A Unit}
    (h : Charging act) (hother : Charging other) : Charging (if c then act else other) := by
  split
  · exact h
  · exact hother

theorem ExtendedInstruction.charging_run (i : ExtendedInstruction) :
    Charging (i.run : Exec V A Unit) := by
  cases i with
  | shift op o =>
    exact o.charging_read.bind fun _ => charging_regs.bind fun _ =>
      (charging_setFlags _).bind fun _ => o.charging_write _
  | test bit o =>
    exact o.charging_read.bind fun _ => charging_regs.bind fun _ => charging_setFlags _
  | clear bit o => exact o.charging_read.bind fun _ => o.charging_write _
  | set bit o => exact o.charging_read.bind fun _ => o.charging_write _

namespace Instruction

theorem charging_runCall (target : UInt16) : Charging (runCall target : Exec V A Unit) :=
  (charging_idle _).bind fun _ => charging_regs.bind fun _ =>
    (charging_push _).bind fun _ => charging_setWord _ _

theorem charging_runReturn : Charging (runReturn : Exec V A Unit) :=
  charging_pop.bind fun _ => (charging_setWord _ _).bind fun _ => charging_idle _

theorem charging_run (i : Instruction) : Charging (i.run : Exec V A Unit) := by
  cases i with
  | nop => exact .pure _
  | stop => exact charging_fetch.bind fun _ => .pure _
  | halt => exact charging_modifyCpu _
  | storeSP =>
    exact charging_fetchWord.bind fun _ => charging_regs.bind fun _ =>
      charging_storeWord _ _
  | jumpRelative c =>
    exact charging_fetch.bind fun _ => (charging_conditionHolds _).bind fun _ =>
      charging_ite (charging_regs.bind fun _ => (charging_setWord _ _).bind fun _ => charging_idle _)
        (.pure _)
  | loadWord dst => exact charging_fetchWord.bind fun _ => charging_setWord _ _
  | addToHL src => exact (charging_modifyRegs _).bind fun _ => charging_idle _
  | storeAt dst =>
    exact dst.charging_address.bind fun _ => charging_regs.bind fun _ =>
      charging_store _ _
  | loadFrom src =>
    exact src.charging_address.bind fun _ => (charging_load _).bind fun _ =>
      charging_setByte _ _
  | incrementWord r => exact (charging_modifyRegs _).bind fun _ => charging_idle _
  | decrementWord r => exact (charging_modifyRegs _).bind fun _ => charging_idle _
  | increment o =>
    exact o.charging_read.bind fun _ => charging_regs.bind fun _ =>
      (charging_setFlags _).bind fun _ => o.charging_write _
  | decrement o =>
    exact o.charging_read.bind fun _ => charging_regs.bind fun _ =>
      (charging_setFlags _).bind fun _ => o.charging_write _
  | loadImmediate dst => exact charging_fetch.bind fun _ => dst.charging_write _
  | rotateA op => exact charging_modifyRegs _
  | decimalAdjust => exact charging_modifyRegs _
  | complement => exact charging_modifyRegs _
  | setCarry => exact charging_modifyRegs _
  | flipCarry => exact charging_modifyRegs _
  | load dst src => exact src.charging_read.bind fun _ => dst.charging_write _
  | alu op src => exact src.charging_read.bind fun _ => charging_modifyRegs _
  | aluImmediate op => exact charging_fetch.bind fun _ => charging_modifyRegs _
  | ret c =>
    cases c with
    | none => exact charging_runReturn
    | some c =>
      exact (charging_idle _).bind fun _ => (charging_conditionHolds _).bind fun _ =>
        charging_ite charging_runReturn (.pure _)
  | retEnable => exact charging_runReturn.bind fun _ => charging_modifyCpu _
  | storeHigh =>
    exact charging_fetch.bind fun _ => charging_regs.bind fun _ =>
      charging_store _ _
  | loadHigh =>
    exact charging_fetch.bind fun _ => (charging_load _).bind fun _ =>
      charging_setByte _ _
  | storeHighC => exact charging_regs.bind fun _ => charging_store _ _
  | loadHighC =>
    exact charging_regs.bind fun _ => (charging_load _).bind fun _ =>
      charging_setByte _ _
  | storeDirect =>
    exact charging_fetchWord.bind fun _ => charging_regs.bind fun _ =>
      charging_store _ _
  | loadDirect =>
    exact charging_fetchWord.bind fun _ => (charging_load _).bind fun _ =>
      charging_setByte _ _
  | addToSP =>
    exact charging_fetch.bind fun _ => (charging_modifyRegs _).bind fun _ =>
      charging_idle _
  | loadHLFromSP =>
    exact charging_fetch.bind fun _ => (charging_modifyRegs _).bind fun _ =>
      charging_idle _
  | loadSPFromHL => exact (charging_modifyRegs _).bind fun _ => charging_idle _
  | pop dst => exact charging_pop.bind fun _ => charging_setWord _ _
  | push src => exact (charging_idle _).bind fun _ => charging_regs.bind fun _ => charging_push _
  | jump c =>
    exact charging_fetchWord.bind fun _ => (charging_conditionHolds _).bind fun _ =>
      charging_ite ((charging_setWord _ _).bind fun _ => charging_idle _) (.pure _)
  | jumpHL => exact charging_modifyRegs _
  | call c =>
    exact charging_fetchWord.bind fun _ => (charging_conditionHolds _).bind fun _ =>
      charging_ite (charging_runCall _) (.pure _)
  | restart slot => exact charging_runCall _
  | disableInterrupts => exact charging_modifyCpu _
  | enableInterrupts => exact charging_modifyCpu _
  | extended => exact charging_fetch.bind fun _ => ExtendedInstruction.charging_run _

end Instruction

namespace Exec

theorem charging_dispatch (i : Interrupt) : Charging (dispatch i : Exec V A Unit) :=
  (charging_idle _).bind fun _ =>
    Charging.bind (fun _ => Nat.le_refl _) fun _ => charging_regs.bind fun _ =>
      (charging_push _).bind fun _ => (charging_idle _).bind fun _ => charging_setWord _ _

theorem charging_serveInterrupts : Charging (serveInterrupts : Exec V A Unit) := by
  refine Charging.bind (fun _ => Nat.le_refl _) fun _ => charging_ite ?_ (.pure _)
  refine (charging_modifyCpu _).bind fun _ => Charging.bind (fun _ => Nat.le_refl _) fun due => ?_
  cases due with
  | none => exact .pure _
  | some i => exact charging_dispatch i

theorem lt_cycles_runNext (s : Core V A) :
    s.bus.cycles < (runNext s).2.bus.cycles := by
  have hfetch : s.bus.cycles < ((fetch : Exec V A UInt8) s).2.bus.cycles := by
    rw [cycles_fetch]
    exact Nat.lt_add_of_pos_right (by decide)
  refine Nat.lt_of_lt_of_le hfetch ?_
  unfold runNext
  rw [bind_apply, bind_apply]
  cases Instruction.decode (fetch s).1 with
  | none => exact Charging.pure _ _
  | some i =>
    exact ((Instruction.charging_run i).bind fun _ =>
      (charging_modifyCpu _).bind fun _ => .pure _) _

theorem lt_cycles_runOrIdle (s : Core V A) :
    s.bus.cycles < (runOrIdle s).2.bus.cycles := by
  have hunfold : runOrIdle s =
      if s.cpu.halted then (.ok (), { s with bus := s.bus.advance machineCycle }) else runNext s := by
    unfold runOrIdle
    rw [bind_apply]
    change (if s.cpu.halted then _ else _ : Exec V A (Except CpuError Unit)) s = _
    cases s.cpu.halted
    · rfl
    · rfl
  rw [hunfold]
  split
  · exact Nat.lt_add_of_pos_right (by decide)
  · exact lt_cycles_runNext s

/-- A step that succeeds takes at least one cycle. -/
theorem step_pos {s s' : Core V A} {taken : Nat} (h : step s = (.ok taken, s')) : 0 < taken := by
  have hrun := lt_cycles_runOrIdle s
  unfold step stepFrom at h
  rw [bind_apply] at h
  cases hbody : runOrIdle s with
  | mk result middle =>
    rw [hbody] at hrun h
    cases result with
    | error e =>
      change (Except.error e, middle) = _ at h
      cases h
    | ok u =>
      have hserve := charging_serveInterrupts (V := V) (A := A) middle
      have htaken : (serveInterrupts middle).2.bus.cycles - s.bus.cycles = taken := by
        change (Except.ok ((serveInterrupts middle).2.bus.cycles - s.bus.cycles), _) = _ at h
        injection h with h
        exact Except.ok.inj h
      dsimp only at hrun
      omega

end Exec

end Handheld
