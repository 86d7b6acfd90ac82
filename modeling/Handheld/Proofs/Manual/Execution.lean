import Handheld.Proofs.Manual.Instruction

/-!
Running an instruction follows the manual: after its opcode has been taken, the registers
and the bus are those that the script leaves, and nothing but the switches of interrupts
and of the halt changes besides. The comparison is by computation with the bus kept closed,
after the conditions, the addresses of the immediates and the arithmetic have been brought
to the form of the manual.
-/
namespace Handheld.Manual

open Script

/-- The switches that an instruction sets while it runs, before the count of a pending
enabling of interrupts. -/
def switched (i : Instruction) (cpu : Cpu) : Cpu :=
  match i with
  | .halt => { cpu with halted := true }
  | .disableInterrupts => { cpu with ime := false, enableDelay := 0 }
  | .enableInterrupts => { cpu with enableDelay := 2 }
  | .retEnable => { cpu with ime := true, enableDelay := 0 }
  | _ => cpu

theorem add_two (w : UInt16) : w + 2 = w + 1 + 1 := by
  rw [UInt16.add_assoc]
  rfl

theorem add_three (w : UInt16) : w + 3 = w + 1 + 2 := by
  rw [UInt16.add_assoc]
  rfl

theorem highPage_eq (n : UInt8) : highPage n = lastPage n := rfl

theorem all_holds (flags : Flags) (c : Option Condition) :
    c.all (·.holds flags) = holds flags c := by
  cases c with
  | none => rfl
  | some c => cases c <;> rfl

/-- The count of a pending enabling of interrupts completes the switches of the manual. -/
theorem settle_switched (i : Instruction) (cpu : Cpu) :
    { switched i cpu with
      ime := (switched i cpu).ime || (cpu.enableDelay == 1 && (switched i cpu).enableDelay != 0)
      enableDelay := (switched i cpu).enableDelay - 1 } = control i cpu := by
  have hpending : (cpu.enableDelay == 1 && cpu.enableDelay != 0) = (cpu.enableDelay == 1) := by
    rw [Bool.eq_iff_iff]
    simp only [Bool.and_eq_true, beq_iff_eq, bne_iff_ne]
    omega
  cases i with
  | disableInterrupts => simp [switched, control]
  | enableInterrupts => simp [switched, control, counted]
  | retEnable => simp [switched, control]
  | halt => simp only [switched, control, counted, hpending]
  | _ => simp only [switched, control, counted, hpending]

variable {V A : Type} [VideoUnit V] [AudioUnit A]

theorem idle_apply (n : Nat) (s : Core V A) :
    Exec.idle n s = ((), { s with bus := s.bus.advance n }) := rfl

omit [VideoUnit V] [AudioUnit A] in
theorem conditionHolds_apply (c : Option Condition) (s : Core V A) :
    conditionHolds c s = (holds s.cpu.regs.flags c, s) := by
  rw [← all_holds]
  rfl

section Run

-- A comparison by computation must not look into the devices behind the bus.
attribute [local irreducible] Bus.advance Bus.read Bus.write Word.join

theorem fetch_apply (cpu : Cpu) (r : Registers) (b : Bus V A) :
    Exec.fetch ⟨{ cpu with regs := r }, b⟩ =
      (b.read r.pc,
        ⟨{ cpu with regs := { r with pc := r.pc + 1 } }, b.advance Bus.accessCycles⟩) := rfl

theorem fetchWord_apply (cpu : Cpu) (r : Registers) (b : Bus V A) :
    Exec.fetchWord ⟨{ cpu with regs := r }, b⟩ =
      (Word.join ((b.advance Bus.accessCycles).read (r.pc + 1)) (b.read r.pc),
        ⟨{ cpu with regs := { r with pc := r.pc + 2 } },
          (b.advance Bus.accessCycles).advance Bus.accessCycles⟩) := rfl

/-- The operands of the manual, by the accesses to the register file. -/
theorem source_eq (o : Operand) (r : Registers) (next : UInt8 → Script) :
    source o r next =
      match o with
      | .reg x => next (r.byte x)
      | .atHL => .read (r.word .hl) next := by
  cases o with
  | reg x => exact congrArg next (byte_eq_held r x).symm
  | atHL => rfl

theorem target_eq (o : Operand) (r : Registers) (v : UInt8) :
    target o r v =
      match o with
      | .reg x => .done (r.setByte x v)
      | .atHL => .write (r.word .hl) v (.done r) := by
  cases o with
  | reg x => exact congrArg Script.done (setByte_eq_put r x v).symm
  | atHL => rfl

/-- The quarters of the second opcodes. -/
theorem four_cases (x : Nat) : x = 0 ∨ x = 1 ∨ x = 2 ∨ ∃ k, x = k + 3 := by
  by_cases h : 3 ≤ x
  · exact .inr (.inr (.inr ⟨x - 3, by omega⟩))
  · omega

theorem run_decode_extended (op : UInt8) (cpu : Cpu) (r : Registers) (b : Bus V A) :
    (ExtendedInstruction.decode op).run ⟨{ cpu with regs := r }, b⟩ =
      ((), ⟨{ cpu with regs := ((extendedScript op r).play b).1 },
        ((extendedScript op r).play b).2⟩) := by
  simp only [ExtendedInstruction.decode, extendedScript, operand_ofField, shiftOp_ofField]
  generalize operands (zField op) = o
  generalize yField op = y
  generalize op.toNat / 64 = x
  obtain rfl | rfl | rfl | ⟨k, rfl⟩ := four_cases x
  · cases o <;> simp only [source_eq, target_eq, ← shift_eq] <;> rfl
  · cases o <;> simp only [source_eq, ← testBit_eq] <;> rfl
  · cases o <;> simp only [source_eq, target_eq, ← and_not_bit] <;> rfl
  · cases o <;> simp only [source_eq, target_eq, ← or_bit] <;> rfl

/-- An action that runs after the opcode does what a script from before the opcode says. -/
def Follows (act : Exec V A Unit) (effect : Cpu → Cpu) (script : Registers → Script) : Prop :=
  ∀ (cpu : Cpu) (r : Registers) (b : Bus V A),
    act ⟨{ cpu with regs := { r with pc := r.pc + 1 } }, b⟩ =
      ((), ⟨effect { cpu with regs := ((script r).play b).1 }, ((script r).play b).2⟩)

theorem follows_run (i : Instruction) :
    Follows (V := V) (A := A) i.run (switched i) (operation i) := by
  intro cpu r b
  have h2 : r.pc + 2 = r.pc + 1 + 1 := add_two r.pc
  have h3 : r.pc + 3 = r.pc + 1 + 2 := add_three r.pc
  cases i with
  | nop => rfl
  | stop =>
    simp only [operation, past, length, h2]
    rfl
  | halt => rfl
  | storeSP =>
    simp only [operation, immediateWord, past, length, h2, h3]
    rfl
  | jumpRelative c =>
    simp only [Instruction.run, Exec.bind_apply, conditionHolds_apply, fetch_apply, operation,
      immediate, past, length, h2, play, ← add_signExtend]
    cases h : holds r.flags c
    · rfl
    · rfl
  | loadWord dst =>
    simp only [operation, immediateWord, past, length, h2, h3, ← setWord_eq_putWord]
    rfl
  | addToHL src =>
    simp only [operation, past, length, ← addWords_eq, ← word_eq_heldWord]
    rfl
  | storeAt dst => cases dst <;> rfl
  | loadFrom src => cases src <;> rfl
  | incrementWord x =>
    simp only [operation, past, length, ← word_eq_heldWord, ← setWord_eq_putWord]
    rfl
  | decrementWord x =>
    simp only [operation, past, length, ← word_eq_heldWord, ← setWord_eq_putWord]
    rfl
  | increment o =>
    cases o <;> simp only [operation, past, length, source_eq, target_eq, ← increment_eq] <;> rfl
  | decrement o =>
    cases o <;> simp only [operation, past, length, source_eq, target_eq, ← decrement_eq] <;> rfl
  | loadImmediate o =>
    cases o <;> simp only [operation, immediate, past, length, target_eq, h2] <;> rfl
  | rotateA op =>
    simp only [operation, past, length, ← shift_eq]
    rfl
  | decimalAdjust =>
    simp only [operation, past, length, ← decimalAdjust_eq]
    rfl
  | complement =>
    simp only [operation, past, length, ← not_eq]
    rfl
  | setCarry => rfl
  | flipCarry => rfl
  | load dst src =>
    cases dst <;> cases src <;> simp only [operation, past, length, source_eq, target_eq] <;> rfl
  | alu op src =>
    cases src <;>
      simp only [operation, past, length, accumulated, source_eq, ← apply_eq_accumulate] <;> rfl
  | aluImmediate op =>
    simp only [operation, past, length, immediate, accumulated, ← apply_eq_accumulate, h2]
    rfl
  | ret c =>
    cases c with
    | none => rfl
    | some c =>
      simp only [Instruction.run, Exec.bind_apply, conditionHolds_apply, idle_apply, operation, past,
        length, play]
      by_cases h : holds r.flags (some c) = true
      · simp only [h, if_true]
        rfl
      · simp only [h]
        rfl
  | retEnable => rfl
  | storeHigh =>
    simp only [operation, immediate, past, length, h2, ← highPage_eq]
    rfl
  | loadHigh =>
    simp only [operation, immediate, past, length, h2, ← highPage_eq]
    rfl
  | storeHighC =>
    simp only [operation, past, length, ← highPage_eq]
    rfl
  | loadHighC =>
    simp only [operation, past, length, ← highPage_eq]
    rfl
  | storeDirect =>
    simp only [operation, immediateWord, past, length, h2, h3]
    rfl
  | loadDirect =>
    simp only [operation, immediateWord, past, length, h2, h3]
    rfl
  | addToSP =>
    simp only [operation, immediate, past, length, h2, ← addOffset_eq]
    rfl
  | loadHLFromSP =>
    simp only [operation, immediate, past, length, h2, ← addOffset_eq]
    rfl
  | loadSPFromHL => rfl
  | pop dst =>
    simp only [operation, past, length, ← setWord_eq_putWord]
    rfl
  | push src =>
    simp only [operation, past, length, ← word_eq_heldWord]
    rfl
  | jump c =>
    simp only [Instruction.run, Exec.bind_apply, conditionHolds_apply, fetchWord_apply, operation,
      immediateWord, past, length, h2, h3, play]
    cases h : holds r.flags c
    · rfl
    · rfl
  | jumpHL => rfl
  | call c =>
    simp only [Instruction.run, Exec.bind_apply, conditionHolds_apply, fetchWord_apply, operation,
      immediateWord, past, length, h2, h3, play]
    cases h : holds r.flags c
    · rfl
    · rfl
  | restart slot => rfl
  | disableInterrupts => rfl
  | enableInterrupts => rfl
  | extended =>
    simp only [Instruction.run, Exec.bind_apply, fetch_apply, operation, past, length, h2, play,
      switched]
    exact run_decode_extended _ _ _ _

end Run

end Handheld.Manual
