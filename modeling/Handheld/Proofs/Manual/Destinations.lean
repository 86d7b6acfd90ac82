import Handheld.Proofs.Manual.Instruction

/-!
What an instruction leaves alone. The register file is cut into cells that change by
themselves, and the fields of an instruction name the cells that it may change. Every other
cell is as it was, but for the program counter, which is past the instruction.
-/
namespace Handheld.Manual

inductive Cell
  | a
  | b
  | c
  | d
  | e
  | h
  | l
  | flag (f : Flag)
  | sp
  | pc
  deriving DecidableEq

/-- Registers that agree in a cell. -/
def Agree (r r' : Registers) : Cell → Prop
  | .a => r'.a = r.a
  | .b => r'.b = r.b
  | .c => r'.c = r.c
  | .d => r'.d = r.d
  | .e => r'.e = r.e
  | .h => r'.h = r.h
  | .l => r'.l = r.l
  | .flag f => r'.flags.get f = r.flags.get f
  | .sp => r'.sp = r.sp
  | .pc => r'.pc = r.pc

/-- Registers that agree in all cells but those of a list. -/
def Keeps (cells : List Cell) (r r' : Registers) : Prop := ∀ cell, cell ∉ cells → Agree r r' cell

section Keeps

variable {cells more : List Cell} {r s t : Registers}

theorem Keeps.refl (cells : List Cell) (r : Registers) : Keeps cells r r := by
  intro cell _
  cases cell <;> rfl

theorem Keeps.trans (first : Keeps cells r s) (next : Keeps more s t) :
    Keeps (cells ++ more) r t := by
  intro cell hcell
  obtain ⟨hfirst, hnext⟩ := not_or.mp (mt List.mem_append.mpr hcell)
  have hrs := first cell hfirst
  have hst := next cell hnext
  cases cell <;> exact Eq.trans hst hrs

variable {V A : Type} [VideoUnit V] [AudioUnit A]

end Keeps

end Handheld.Manual
