import Handheld.Instruction
import Mathlib.Data.Fin.VecNotation
import Mathlib.Data.List.FinRange

/-!
Opcodes as a manual lists them, by the fields x, y and z and the parts p and q of y. The
list has one line for each used opcode; the decoder finds exactly these lines.
-/
namespace Handheld.Manual

/-- The operands by number; the memory at HL stands where the flag register would. -/
def operands : Fin 8 → Operand :=
  ![.reg .b, .reg .c, .reg .d, .reg .e, .reg .h, .reg .l, .atHL, .reg .a]

/-- The pairs of arithmetic by number. -/
def pairs : Fin 4 → WordReg := ![.bc, .de, .hl, .sp]

/-- The pairs of the stack by number. -/
def stackPairs : Fin 4 → WordReg := ![.bc, .de, .hl, .af]

def pointers : Fin 4 → Pointer := ![.bc, .de, .hlUp, .hlDown]

def conditions : Fin 4 → Condition := ![.notZero, .zero, .notCarry, .carry]

def aluOps : Fin 8 → AluOp := ![.add, .adc, .sub, .sbc, .and, .xor, .or, .cp]

def shiftOps : Fin 8 → ShiftOp := ![.rlc, .rrc, .rl, .rr, .sla, .sra, .swap, .srl]

/-- The opcode with the given fields. -/
def opcode (x y z : Nat) : UInt8 := UInt8.ofNat (64 * x + 8 * y + z)

/-- The lines without a variable field. -/
def fixedLines : List (UInt8 × Instruction) :=
  [(opcode 0 0 0, .nop), (opcode 0 1 0, .storeSP), (opcode 0 2 0, .stop),
    (opcode 0 3 0, .jumpRelative none), (opcode 0 4 7, .decimalAdjust), (opcode 0 5 7, .complement),
    (opcode 0 6 7, .setCarry), (opcode 0 7 7, .flipCarry), (opcode 1 6 6, .halt),
    (opcode 3 4 0, .storeHigh), (opcode 3 5 0, .addToSP), (opcode 3 6 0, .loadHigh),
    (opcode 3 7 0, .loadHLFromSP), (opcode 3 1 1, .ret none), (opcode 3 3 1, .retEnable),
    (opcode 3 5 1, .jumpHL), (opcode 3 7 1, .loadSPFromHL), (opcode 3 4 2, .storeHighC),
    (opcode 3 5 2, .storeDirect), (opcode 3 6 2, .loadHighC), (opcode 3 7 2, .loadDirect),
    (opcode 3 0 3, .jump none), (opcode 3 1 3, .extended), (opcode 3 6 3, .disableInterrupts),
    (opcode 3 7 3, .enableInterrupts), (opcode 3 1 5, .call none)]

/-- The lines whose y field names a condition, or whose p part names a pair, a pointer or an
accumulator rotation. -/
def pairLines (p : Fin 4) : List (UInt8 × Instruction) :=
  [(opcode 0 (4 + p) 0, .jumpRelative (some (conditions p))),
    (opcode 0 (2 * p) 1, .loadWord (pairs p)), (opcode 0 (2 * p + 1) 1, .addToHL (pairs p)),
    (opcode 0 (2 * p) 2, .storeAt (pointers p)), (opcode 0 (2 * p + 1) 2, .loadFrom (pointers p)),
    (opcode 0 (2 * p) 3, .incrementWord (pairs p)),
    (opcode 0 (2 * p + 1) 3, .decrementWord (pairs p)),
    (opcode 0 p 7, .rotateA (shiftOps (p.castLE (by decide)))),
    (opcode 3 p 0, .ret (some (conditions p))), (opcode 3 (2 * p) 1, .pop (stackPairs p)),
    (opcode 3 p 2, .jump (some (conditions p))), (opcode 3 p 4, .call (some (conditions p))),
    (opcode 3 (2 * p) 5, .push (stackPairs p))]

/-- The lines whose y field names an operand, an accumulator operation or a restart. -/
def operandLines (y : Fin 8) : List (UInt8 × Instruction) :=
  [(opcode 0 y 4, .increment (operands y)), (opcode 0 y 5, .decrement (operands y)),
    (opcode 0 y 6, .loadImmediate (operands y)), (opcode 3 y 6, .aluImmediate (aluOps y)),
    (opcode 3 y 7, .restart y)]

/-- The lines of a load and of an accumulator operation. A load of memory into itself is
no line: its opcode is the halt. -/
def blockLines (y z : Fin 8) : List (UInt8 × Instruction) :=
  (if y.val = 6 ∧ z.val = 6 then [] else [(opcode 1 y z, .load (operands y) (operands z))]) ++
    [(opcode 2 y z, .alu (aluOps y) (operands z))]

/-- Every used opcode with its instruction. -/
def opcodes : List (UInt8 × Instruction) :=
  fixedLines ++ (List.finRange 4).flatMap pairLines ++ (List.finRange 8).flatMap operandLines ++
    (List.finRange 8).flatMap fun y => (List.finRange 8).flatMap fun z => blockLines y z

/-- The opcodes that no instruction has. -/
def unused : List UInt8 :=
  [0xD3, 0xDB, 0xDD, 0xE3, 0xE4, 0xEB, 0xEC, 0xED, 0xF4, 0xFC, 0xFD]

theorem operand_ofField (z : Fin 8) : Operand.ofField z = operands z := by
  revert z
  decide

theorem shiftOp_ofField (y : Fin 8) : ShiftOp.ofField y = shiftOps y := by
  revert y
  decide

theorem decode_of_mem {op : UInt8} {i : Instruction} (h : (op, i) ∈ opcodes) :
    Instruction.decode op = some i := by
  have key : ∀ line ∈ opcodes, Instruction.decode line.1 = some line.2 := by decide +kernel
  exact key _ h

theorem decode_of_unused {op : UInt8} (h : op ∈ unused) : Instruction.decode op = none := by
  have key : ∀ op ∈ unused, Instruction.decode op = none := by decide +kernel
  exact key _ h

/-- The lines among which the fields of an opcode place it. -/
def candidates (op : UInt8) : List (UInt8 × Instruction) :=
  blockLines (yField op) (zField op) ++ operandLines (yField op) ++
    pairLines ⟨(yField op).val / 2, by omega⟩ ++ pairLines ⟨(yField op).val % 4, by omega⟩ ++
    fixedLines

theorem mem_opcodes_of_mem_candidates {op : UInt8} {line : UInt8 × Instruction}
    (h : line ∈ candidates op) : line ∈ opcodes := by
  simp only [candidates, List.mem_append] at h
  simp only [opcodes, List.mem_append, List.mem_flatMap, List.mem_finRange, true_and]
  rcases h with (((h | h) | h) | h) | h
  · exact Or.inr ⟨_, _, h⟩
  · exact Or.inl (Or.inr ⟨_, h⟩)
  · exact Or.inl (Or.inl (Or.inr ⟨_, h⟩))
  · exact Or.inl (Or.inl (Or.inr ⟨_, h⟩))
  · exact Or.inl (Or.inl (Or.inl h))

/-- Every opcode but the unused ones has a line. -/
theorem exists_mem_opcodes {op : UInt8} (h : op ∉ unused) : ∃ i, (op, i) ∈ opcodes := by
  have hop : ∀ op : UInt8, op ∈ unused ∨ (candidates op).any (·.1 == op) = true :=
    forall_byte (by decide +kernel)
  obtain ⟨line, hline, heq⟩ := List.any_eq_true.mp ((hop op).resolve_left h)
  obtain rfl := beq_iff_eq.mp heq
  exact ⟨line.2, mem_opcodes_of_mem_candidates hline⟩

/-- The decoder finds exactly the lines of the manual. -/
theorem decode_eq_some_iff {op : UInt8} {i : Instruction} :
    Instruction.decode op = some i ↔ (op, i) ∈ opcodes := by
  constructor
  · intro h
    have hused : op ∉ unused := fun hmem => by simp [decode_of_unused hmem] at h
    obtain ⟨j, hj⟩ := exists_mem_opcodes hused
    have hji : j = i := by simpa [decode_of_mem hj] using h
    exact hji ▸ hj
  · exact decode_of_mem

theorem decode_eq_none_iff {op : UInt8} : Instruction.decode op = none ↔ op ∈ unused := by
  constructor
  · intro hnone
    by_contra hused
    obtain ⟨i, hi⟩ := exists_mem_opcodes hused
    simp [decode_of_mem hi] at hnone
  · exact decode_of_unused

end Handheld.Manual
