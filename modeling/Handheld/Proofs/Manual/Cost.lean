import Handheld.Proofs.Transition
import Handheld.Console

/-!
The cycles of a step. The tables give the bytes of data that an instruction moves and the
internal delays, from nothing but the instruction, the byte after its opcode and the flags.
The script of the instruction uses exactly what the tables say, so that the cost of a step
follows from the tables, and the interrupt of a step adds a fixed number of cycles.
-/
namespace Handheld.Manual

open Script

/-- The bytes of memory that an operand moves. -/
def operandBytes : Operand → Nat
  | .reg _ => 0
  | .atHL => 1

/-- The bytes of data that an instruction reads or writes. The second byte matters for the
extended instructions only, of which the tests do not write back. -/
def dataBytes (i : Instruction) (second : UInt8) (flags : Flags) : Nat :=
  match i with
  | .storeAt _ | .loadFrom _ | .storeDirect | .loadDirect => 1
  | .storeHigh | .loadHigh | .storeHighC | .loadHighC => 1
  | .storeSP | .retEnable | .pop _ | .push _ | .restart _ => 2
  | .ret c | .call c => if holds flags c then 2 else 0
  | .increment o | .decrement o => 2 * operandBytes o
  | .loadImmediate o | .alu _ o => operandBytes o
  | .load dst src => operandBytes dst + operandBytes src
  | .extended =>
    (if second.toNat / 64 = 1 then 1 else 2) * operandBytes (operands (zField second))
  | _ => 0

/-- The internal delays of an instruction. -/
def internalDelay (i : Instruction) (flags : Flags) : Nat :=
  match i with
  | .incrementWord _ | .decrementWord _ | .addToHL _ | .loadHLFromSP | .loadSPFromHL => 4
  | .push _ | .restart _ | .retEnable | .ret none => 4
  | .ret (some c) => 4 + if holds flags (some c) then 4 else 0
  | .jumpRelative c | .jump c | .call c => if holds flags c then 4 else 0
  | .addToSP => 8
  | _ => 0

/-- What an instruction uses, its opcode among the bytes taken. -/
def tabled (i : Instruction) (second : UInt8) (flags : Flags) : Usage :=
  ⟨(length i).toNat, dataBytes i second flags, internalDelay i flags⟩

theorem cycles_tabled_eq (i : Instruction) (second : UInt8) (flags : Flags) :
    (tabled i second flags).cycles =
      4 * ((length i).toNat + dataBytes i second flags) + internalDelay i flags := rfl

/-- The cycles of an instruction are whole machine cycles, at least one and at most six. -/
theorem cycles_tabled (i : Instruction) (second : UInt8) (flags : Flags) :
    4 ∣ (tabled i second flags).cycles ∧ 4 ≤ (tabled i second flags).cycles ∧
      (tabled i second flags).cycles ≤ 24 := by
  rw [cycles_tabled_eq]
  have hbytes (o : Operand) : operandBytes o ≤ 1 := by
    cases o with
    | reg x => exact Nat.zero_le 1
    | atHL => exact Nat.le_refl 1
  cases i with
  | increment o | decrement o | loadImmediate o | alu op o =>
    have ho := hbytes o
    simp only [length, dataBytes, internalDelay, UInt16.reduceToNat]
    omega
  | load dst src =>
    have hdst := hbytes dst
    have hsrc := hbytes src
    simp only [length, dataBytes, internalDelay, UInt16.reduceToNat]
    omega
  | extended =>
    have ho := hbytes (operands (zField second))
    simp only [length, dataBytes, internalDelay, UInt16.reduceToNat]
    split
    · omega
    · omega
  | jumpRelative c | jump c | call c =>
    simp only [length, dataBytes, internalDelay, UInt16.reduceToNat]
    cases holds flags c
    · decide
    · decide
  | ret c =>
    cases c with
    | none =>
      simp only [length, dataBytes, internalDelay, UInt16.reduceToNat, holds]
      decide
    | some c =>
      simp only [length, dataBytes, internalDelay, UInt16.reduceToNat]
      cases holds flags (some c)
      · decide
      · decide
  | _ =>
    simp only [length, dataBytes, internalDelay, UInt16.reduceToNat]
    decide

variable {V A : Type} [VideoUnit V] [AudioUnit A]

theorem usage_extendedScript (op : UInt8) (r : Registers) (b : Bus V A) :
    (extendedScript op r).usage b =
      ⟨0, (if op.toNat / 64 = 1 then 1 else 2) * operandBytes (operands (zField op)), 0⟩ := by
  simp only [extendedScript]
  generalize operands (zField op) = o
  generalize op.toNat / 64 = x
  obtain rfl | rfl | rfl | ⟨k, rfl⟩ := four_cases x
  · cases o <;> rfl
  · cases o <;> rfl
  · cases o <;> rfl
  · cases o <;> simp [source, target, usage, operandBytes]

/-- A script uses what the tables say. -/
theorem usage_script (i : Instruction) (r : Registers) (b : Bus V A) :
    (script i r).usage b =
      tabled i ((b.advance Bus.accessCycles).read (r.pc + 1)) r.flags := by
  cases i with
  | increment o => cases o <;> rfl
  | decrement o => cases o <;> rfl
  | loadImmediate o => cases o <;> rfl
  | alu op o => cases o <;> rfl
  | load dst src => cases dst <;> cases src <;> rfl
  | jumpRelative c =>
    simp only [script, operation, immediate, past, usage, tabled, dataBytes, internalDelay]
    by_cases h : holds r.flags c = true
    · simp only [h, if_true]
      rfl
    · simp only [h]
      rfl
  | ret c =>
    cases c with
    | none => rfl
    | some c =>
      simp only [script, operation, past, usage, tabled, dataBytes, internalDelay]
      by_cases h : holds r.flags (some c) = true
      · simp only [h, if_true]
        rfl
      · simp only [h]
        rfl
  | jump c =>
    simp only [script, operation, immediateWord, past, usage, tabled, dataBytes, internalDelay]
    by_cases h : holds r.flags c = true
    · simp only [h, if_true]
      rfl
    · simp only [h]
      rfl
  | call c =>
    simp only [script, operation, immediateWord, past, usage, tabled, dataBytes, internalDelay]
    by_cases h : holds r.flags c = true
    · simp only [h, if_true]
      rfl
    · simp only [h]
      rfl
  | storeAt p => cases p <;> rfl
  | loadFrom p => cases p <;> rfl
  | extended =>
    simp only [script, operation, usage, usage_extendedScript, tabled, dataBytes, internalDelay]
    rfl
  | _ => rfl

end Handheld.Manual

namespace Handheld.Core

variable {V A : Type} [VideoUnit V] [AudioUnit A]

/-- An interrupt takes five machine cycles. -/
theorem cycles_interrupted (i : Interrupt) (s : Core V A) :
    (s.interrupted i).bus.cycles = s.bus.cycles + 20 := by
  simp only [interrupted, Script.cycles_play, Bus.cycles_advance, machineCycle]
  have husage (b : Bus V A) : (interruptScript i s.cpu.regs).usage b = ⟨0, 2, 4⟩ := rfl
  rw [husage]
  simp only [Usage.cycles, Bus.accessCycles]

theorem cycles_answered (s : Core V A) :
    s.answered.bus.cycles = s.bus.cycles + if s.interrupt?.isSome then 20 else 0 := by
  rw [answered]
  cases s.interrupt? with
  | none => rfl
  | some i => exact cycles_interrupted i s.woken

theorem cycles_after_ran (i : Instruction) (s : Core V A) :
    (s.after (.ran i)).bus.cycles =
      s.bus.cycles + (Manual.tabled i s.second s.cpu.regs.flags).cycles := by
  have husage := Manual.usage_script i s.cpu.regs s.bus
  simp only [after, played]
  rw [Script.cycles_play, husage]
  rfl

/-- The cycles that pass before requests are answered: one machine cycle if the processor
is halted, else what the tables say of the instruction, whose script uses just that. -/
def ActionCost (s : Core V A) (base : Nat) : Prop :=
  if s.cpu.halted then base = 4
  else ∃ i, (s.opcode, i) ∈ Manual.opcodes ∧
    (Manual.script i s.cpu.regs).usage s.bus =
      ⟨(Manual.length i).toNat, Manual.dataBytes i s.second s.cpu.regs.flags,
        Manual.internalDelay i s.cpu.regs.flags⟩ ∧
    base =
      4 * ((Manual.length i).toNat + Manual.dataBytes i s.second s.cpu.regs.flags) +
        Manual.internalDelay i s.cpu.regs.flags

theorem exists_actionCost {s : Core V A} (hevent : s.event ≠ .failed) :
    ∃ base, (s.after s.event).bus.cycles = s.bus.cycles + base ∧ s.ActionCost base ∧
      4 ∣ base ∧ 4 ≤ base ∧ base ≤ 24 := by
  cases hhalted : s.cpu.halted with
  | true =>
    have hidle : s.event = .idle := event_of_halted hhalted
    refine ⟨4, by rw [hidle]; rfl, ?_, by decide⟩
    simp [ActionCost, hhalted]
  | false =>
    cases hop : Instruction.decode s.opcode with
    | none => exact absurd ((event_eq_failed_iff s).mpr ⟨hhalted, hop⟩) hevent
    | some i =>
      have hran : s.event = .ran i := event_of_decode hhalted hop
      refine ⟨(Manual.tabled i s.second s.cpu.regs.flags).cycles, ?_, ?_,
        Manual.cycles_tabled _ _ _⟩
      · rw [hran]
        exact cycles_after_ran i s
      · rw [ActionCost, hhalted, if_neg (by decide)]
        exact ⟨i, Manual.decode_eq_some_iff.mp hop, Manual.usage_script i s.cpu.regs s.bus, rfl⟩

/-- The cost of a step that succeeds is that of its action and twenty cycles for an
interrupt. -/
theorem step_cost {s s' : Core V A} {cycles : Nat} (h : Exec.step s = (.ok cycles, s')) :
    s'.bus.cycles = s.bus.cycles + cycles ∧
      (∃ base, s.ActionCost base ∧ cycles = base + (if s.taken?.isSome then 20 else 0)) ∧
      4 ∣ cycles ∧ 4 ≤ cycles ∧ cycles ≤ 44 := by
  rw [step_eq] at h
  obtain ⟨houtcome, rfl⟩ := Prod.mk.inj h
  have hevent : s.event ≠ .failed := by
    intro hfailed
    rw [outcome, if_pos hfailed] at houtcome
    cases houtcome
  rw [outcome, if_neg hevent] at houtcome
  have hcost : (s.after s.event).answered.bus.cycles - s.bus.cycles = cycles :=
    Except.ok.inj houtcome
  have hnext : s.next.bus.cycles = (s.after s.event).answered.bus.cycles := by
    rw [next, if_neg hevent]
    rfl
  have htaken : s.taken? = (s.after s.event).interrupt? := if_neg hevent
  have hanswered := cycles_answered (s.after s.event)
  rw [← htaken] at hanswered
  obtain ⟨base, hafter, hbase, hdvd, hmin, hmax⟩ := exists_actionCost hevent
  have hcycles : cycles = base + (if s.taken?.isSome then 20 else 0) := by omega
  refine ⟨by omega, ⟨base, hbase, hcycles⟩, ?_⟩
  cases htaken? : s.taken?.isSome with
  | true =>
    rw [htaken?, if_pos rfl] at hcycles
    omega
  | false =>
    rw [htaken?, if_neg (by decide)] at hcycles
    omega

/-- The work RAM holds CALL C,0xC200; the carry is set and the timer's interrupt is due. -/
def callingInterrupted : Core Lcd Sound :=
  let s := powerOn none
  { cpu :=
      { s.cpu with
        ime := true
        regs :=
          { s.cpu.regs with flags := ⟨false, false, false, true⟩, sp := 0xDFFE, pc := 0xC000 } }
    bus :=
      { ((s.bus.write 0xC000 0xDC).write 0xC001 0x00).write 0xC002 0xC2 with
        requested := 0x04
        enabled := 0x04 } }

/-- The longest step: a call that is taken, and an interrupt. -/
theorem step_cost_callingInterrupted :
    Exec.step callingInterrupted = (.ok 44, callingInterrupted.next) ∧
      callingInterrupted.next.bus.cycles = callingInterrupted.bus.cycles + 44 ∧
      callingInterrupted.ActionCost 24 := by
  have houtcome : callingInterrupted.outcome = .ok 44 := by decide +kernel
  have hstep : Exec.step callingInterrupted = (.ok 44, callingInterrupted.next) := by
    rw [step_eq, houtcome]
  have htaken : callingInterrupted.taken?.isSome = true := by decide +kernel
  obtain ⟨hcycles, ⟨base, hbase, hsum⟩, -⟩ := step_cost hstep
  rw [htaken, if_pos rfl] at hsum
  obtain rfl : base = 24 := by omega
  exact ⟨hstep, hcycles, hbase⟩

end Handheld.Core
