import Handheld.Proofs.Cells
import Handheld.Proofs.MemoryMap

/-!
The stack in memory. As long as the stack pointer stays within a range of cells, pushes and pops,
with any time between them, do what they do to a list: what is popped is what the list says, the
pointer tells the length of the list, and what lies above where the stack began is not touched.
-/
namespace Handheld

/-- Addresses of cells that a stack may use, up to the one before `high`. -/
structure StackArea where
  low : Nat
  high : Nat
  /-- They lie in the work RAM before it repeats, or in the last page after the registers. -/
  isCells : 0xC000 ≤ low ∧ high ≤ 0xE000 ∨ 0xFF80 ≤ low ∧ high ≤ 0xFFFF

namespace StackArea

variable {area : StackArea} {addr other sp : UInt16}

def Contains (area : StackArea) (addr : UInt16) : Prop :=
  area.low ≤ addr.toNat ∧ addr.toNat < area.high

/-- Whether the stack pointer may have a value. An empty stack points past the area. -/
def Admits (area : StackArea) (sp : UInt16) : Prop :=
  area.low ≤ sp.toNat ∧ sp.toNat ≤ area.high

theorem Contains.region (h : area.Contains addr) :
    Region.of addr = .workRam ∧ 0xC000 ≤ addr.toNat ∧ addr.toNat < 0xE000 ∨
      Region.of addr = .plain ∧ 0xFF80 ≤ addr.toNat := by
  obtain ⟨hlow, hhigh⟩ := h
  rw [Region.of_eq_iff, Region.of_eq_iff]
  simp only [Region.Spans]
  rcases area.isCells with hwork | hlast
  · left
    omega
  · right
    omega

/-- Different addresses of the area have different cells. -/
theorem Contains.cellAt_inj (h : area.Contains addr) (hother : area.Contains other) :
    Bus.cellAt other = Bus.cellAt addr ↔ other = addr := by
  constructor
  · intro hcell
    refine UInt16.toNat_inj.mp ?_
    unfold Bus.cellAt at hcell
    rcases h.region with ⟨hregion, hin⟩ | ⟨hregion, hin⟩ <;>
      rcases hother.region with ⟨hregion', hin'⟩ | ⟨hregion', hin'⟩ <;>
      rw [hregion, hregion'] at hcell
    · have hmod : other.toNat % 0x2000 = addr.toNat % 0x2000 :=
        congrArg Fin.val (Bus.Cell.work.inj hcell)
      omega
    · cases hcell
    · cases hcell
    · exact congrArg Fin.val (Bus.Cell.plain.inj hcell)
  · intro heq
    rw [heq]

theorem Contains.not_inObjectTable (h : area.Contains addr) :
    ¬(Bus.cellAt addr).InObjectTable := by
  unfold Bus.cellAt
  rcases h.region with ⟨hregion, -⟩ | ⟨hregion, hin⟩
  · rw [if_pos hregion]
    exact id
  · rw [if_neg (by simp [hregion])]
    rintro ⟨-, hlt⟩
    have hend : Bus.objectTable.toNat + Bus.objectTableSize = 0xFEA0 := rfl
    have hlt : addr.toNat < Bus.objectTable.toNat + Bus.objectTableSize := hlt
    omega

theorem Contains.isCell {V A : Type} (h : area.Contains addr) (b : Bus V A) :
    b.isCell addr = true := by
  unfold Bus.isCell
  rcases h.region with ⟨hregion, -⟩ | ⟨hregion, -⟩ <;> rw [hregion]

/-- A push keeps within the area. -/
theorem Admits.push (h : area.Admits sp) (hpushed : area.Admits (sp - 2)) :
    (sp - 1).toNat + 1 = sp.toNat ∧ (sp - 2).toNat + 2 = sp.toNat ∧
      area.Contains (sp - 1) ∧ area.Contains (sp - 2) := by
  have hcells := area.isCells
  obtain ⟨hlow, hhigh⟩ := h
  obtain ⟨hlow', -⟩ := hpushed
  have hsub {n : UInt16} (hn : n.toNat ≤ sp.toNat) : (sp - n).toNat = sp.toNat - n.toNat :=
    UInt16.toNat_sub_of_le sp n (UInt16.le_iff_toNat_le.mpr hn)
  have hdeep : 2 ≤ sp.toNat := by omega
  have hone : (sp - 1).toNat = sp.toNat - 1 := hsub (n := 1) (Nat.le_of_succ_le hdeep)
  have htwo : (sp - 2).toNat = sp.toNat - 2 := hsub (n := 2) hdeep
  unfold Contains
  omega

/-- A pop keeps within the area if there is a word left. -/
theorem Admits.pop (h : area.Admits sp) (hword : sp.toNat + 2 ≤ area.high) :
    (sp + 1).toNat = sp.toNat + 1 ∧ (sp + 2).toNat = sp.toNat + 2 ∧
      area.Contains sp ∧ area.Contains (sp + 1) := by
  have hcells := area.isCells
  obtain ⟨hlow, -⟩ := h
  have hone : (sp + 1).toNat = (sp.toNat + 1) % 0x10000 := UInt16.toNat_add sp 1
  have htwo : (sp + 2).toNat = (sp.toNat + 2) % 0x10000 := UInt16.toNat_add sp 2
  unfold Contains
  omega

end StackArea

namespace Bus

variable {V A : Type} [VideoUnit V] [AudioUnit A] {area : StackArea} {addr other sp : UInt16}

/-- In a stack area a read finds what was stored last, whatever time passes. -/
theorem read_store (h : area.Contains addr) (hother : area.Contains other) (b : Bus V A)
    (v : UInt8) : (b.store other v).read addr = if other = addr then v else b.read addr := by
  rw [store, read_of_isCell (h.isCell _), read_of_isCell (h.isCell b),
    write_of_isCell (hother.isCell b)]
  change ((b.setCell (cellAt other) v)).byteAt (cellAt addr) = _
  rw [byteAt_setCell]
  exact if_congr (h.cellAt_inj hother) rfl rfl

theorem read_advance (h : area.Contains addr) (b : Bus V A) (n : Nat) :
    (b.advance n).read addr = b.read addr := by
  rw [read_of_isCell (h.isCell _), read_of_isCell (h.isCell b)]
  rfl

/-- The bus after a word is pushed. -/
def pushWord (b : Bus V A) (sp v : UInt16) : Bus V A :=
  (b.store (sp - 1) (Word.high v)).store (sp - 2) (Word.low v)

/-- A word of memory. -/
def HoldsWord (b : Bus V A) (addr v : UInt16) : Prop :=
  b.read addr = Word.low v ∧ b.read (addr + 1) = Word.high v

/-- The words of a stack, the top one first. -/
def HoldsWords (b : Bus V A) : UInt16 → List UInt16 → Prop
  | _, [] => True
  | sp, v :: rest => b.HoldsWord sp v ∧ b.HoldsWords (sp + 2) rest

/-- A push changes the two bytes below the stack pointer. -/
theorem read_pushWord (h : area.Admits sp) (hpushed : area.Admits (sp - 2))
    (haddr : area.Contains addr) (b : Bus V A) (v : UInt16) :
    (b.pushWord sp v).read addr =
      if sp - 2 = addr then Word.low v else if sp - 1 = addr then Word.high v else b.read addr := by
  obtain ⟨-, -, hfirst, hsecond⟩ := h.push hpushed
  rw [pushWord, read_store haddr hsecond, read_store haddr hfirst]

theorem holdsWord_pushWord (h : area.Admits sp) (hpushed : area.Admits (sp - 2)) (b : Bus V A)
    (v : UInt16) : (b.pushWord sp v).HoldsWord (sp - 2) v := by
  obtain ⟨hone, htwo, hfirst, hsecond⟩ := h.push hpushed
  have hupper : sp - 2 + 1 = sp - 1 := by grind
  have hne : sp - 2 ≠ sp - 1 := by
    intro heq
    rw [heq] at htwo
    omega
  constructor
  · rw [read_pushWord h hpushed hsecond, if_pos rfl]
  · rw [hupper, read_pushWord h hpushed hfirst, if_neg hne, if_pos rfl]

/-- A push leaves alone what lies above the stack pointer. -/
theorem read_pushWord_of_le (h : area.Admits sp) (hpushed : area.Admits (sp - 2))
    (haddr : area.Contains addr) (habove : sp.toNat ≤ addr.toNat) (b : Bus V A) (v : UInt16) :
    (b.pushWord sp v).read addr = b.read addr := by
  obtain ⟨hone, htwo, -, -⟩ := h.push hpushed
  have hlow : sp - 2 ≠ addr := by
    rintro rfl
    omega
  have hhigh : sp - 1 ≠ addr := by
    rintro rfl
    omega
  rw [read_pushWord h hpushed haddr, if_neg hlow, if_neg hhigh]

/-- The word of memory that a charged read takes. -/
theorem loadWord_of_holdsWord {v : UInt16} {b : Bus V A} (h : b.HoldsWord sp v)
    (hadmits : area.Admits sp) (hword : sp.toNat + 2 ≤ area.high) : (b.loadWord sp).1 = v := by
  obtain ⟨-, -, -, hupper⟩ := hadmits.pop hword
  change Word.join ((b.advance accessCycles).read (sp + 1)) (b.read sp) = v
  rw [read_advance hupper, h.1, h.2, Word.join_high_low]

/-- Acts that write to neither of its bytes leave a word alone. -/
theorem HoldsWord.performAll {v : UInt16} {b : Bus V A} {acts : List Act} (h : b.HoldsWord addr v)
    (hlow : area.Contains addr) (hhigh : area.Contains (addr + 1))
    (hspared : ∀ other w, .write other w ∈ acts →
      cellAt other ≠ cellAt addr ∧ cellAt other ≠ cellAt (addr + 1)) :
    (b.performAll acts).HoldsWord addr v := by
  have hkept {a : UInt16} (ha : area.Contains a)
      (hother : ∀ other w, .write other w ∈ acts → cellAt other ≠ cellAt a) :
      (b.performAll acts).read a = b.read a := by
    rw [read_of_isCell (ha.isCell _), read_of_isCell (ha.isCell b)]
    exact byteAt_performAll hother ha.not_inObjectTable b
  constructor
  · rw [hkept hlow fun other w hmem => (hspared other w hmem).1]
    exact h.1
  · rw [hkept hhigh fun other w hmem => (hspared other w hmem).2]
    exact h.2

theorem HoldsWord.advance {v : UInt16} {b : Bus V A} (h : b.HoldsWord addr v)
    (hlow : area.Contains addr) (hhigh : area.Contains (addr + 1)) (n : Nat) :
    (b.advance n).HoldsWord addr v :=
  ⟨(read_advance hlow b n).trans h.1, (read_advance hhigh b n).trans h.2⟩

theorem HoldsWords.congr {b b' : Bus V A} {stack : List UInt16} (h : b.HoldsWords sp stack)
    (hadmits : area.Admits sp) (hwords : sp.toNat + 2 * stack.length ≤ area.high)
    (hsame : ∀ addr, area.Contains addr → sp.toNat ≤ addr.toNat → b'.read addr = b.read addr) :
    b'.HoldsWords sp stack := by
  induction stack generalizing sp with
  | nil => exact trivial
  | cons v rest ih =>
    rw [List.length_cons] at hwords
    obtain ⟨hone, htwo, hlow, hhigh⟩ := hadmits.pop (by omega)
    obtain ⟨⟨hfirst, hsecond⟩, hrest⟩ := h
    refine ⟨⟨?_, ?_⟩, ih hrest ⟨?_, ?_⟩ ?_ ?_⟩
    · rw [hsame sp hlow (Nat.le_refl _), hfirst]
    · rw [hsame (sp + 1) hhigh (by omega), hsecond]
    · rw [htwo]
      exact Nat.le_add_right_of_le hadmits.1
    · omega
    · omega
    · intro addr haddr hle
      exact hsame addr haddr (by omega)

end Bus

/-- What is done to a stack, and the time between. -/
inductive StackOp
  | push (v : UInt16)
  | pop
  | pass (cycles : Nat)

namespace StackOp

variable {V A : Type} [VideoUnit V] [AudioUnit A]

/-- Does it to the stack in memory, and tells what is popped. -/
def run : StackOp → Exec V A (List UInt16)
  | push v => do
    Exec.push v
    return []
  | pop => do
    return [← Exec.pop]
  | pass n => do
    Exec.idle n
    return []

def runAll : List StackOp → Exec V A (List UInt16)
  | [] => return []
  | op :: ops => do
    let popped ← op.run
    return popped ++ (← runAll ops)

/-- Does it to a list, and tells what is popped, if there is something to pop. -/
def apply : StackOp → List UInt16 → Option (List UInt16 × List UInt16)
  | push v, stack => some (v :: stack, [])
  | pop, v :: stack => some (stack, [v])
  | pop, [] => none
  | pass _, stack => some (stack, [])

def applyAll : List StackOp → List UInt16 → Option (List UInt16 × List UInt16)
  | [], stack => some (stack, [])
  | op :: ops, stack => do
    let (stack, popped) ← op.apply stack
    let (stack, more) ← applyAll ops stack
    return (stack, popped ++ more)

/-- The stack pointer stays within an area, from the state before the first operation to the one
after the last. -/
def StaysIn (area : StackArea) : List StackOp → Core V A → Prop
  | [], s => area.Admits s.cpu.regs.sp
  | op :: ops, s => area.Admits s.cpu.regs.sp ∧ StaysIn area ops (op.run s).2

theorem StaysIn.admits {area : StackArea} {ops : List StackOp} {s : Core V A}
    (h : StaysIn area ops s) : area.Admits s.cpu.regs.sp := by
  cases ops with
  | nil => exact h
  | cons op ops => exact h.1

section Unfold

attribute [local irreducible] Bus.advance Bus.read Bus.write Word.join

theorem run_push (v : UInt16) (s : Core V A) :
    (push v).run s =
      ([], ⟨{ s.cpu with regs := { s.cpu.regs with sp := s.cpu.regs.sp - 2 } },
        s.bus.pushWord s.cpu.regs.sp v⟩) := rfl

theorem run_pop (s : Core V A) :
    pop.run s =
      ([(s.bus.loadWord s.cpu.regs.sp).1],
        ⟨{ s.cpu with regs := { s.cpu.regs with sp := s.cpu.regs.sp + 2 } },
          (s.bus.advance Bus.accessCycles).advance Bus.accessCycles⟩) := rfl

theorem run_pass (n : Nat) (s : Core V A) :
    (pass n).run s = ([], { s with bus := s.bus.advance n }) := rfl

end Unfold

end StackOp

/-- A stack in memory that began empty in a state and has grown to some words since. -/
structure Grown (area : StackArea) {V A : Type} [VideoUnit V] [AudioUnit A] (start : Core V A)
    (stack : List UInt16) (s : Core V A) : Prop where
  admits : area.Admits s.cpu.regs.sp
  depth : s.cpu.regs.sp.toNat + 2 * stack.length = start.cpu.regs.sp.toNat
  holds : s.bus.HoldsWords s.cpu.regs.sp stack
  above : ∀ addr, area.Contains addr → start.cpu.regs.sp ≤ addr →
    s.bus.read addr = start.bus.read addr

theorem Grown.begun {area : StackArea} {V A : Type} [VideoUnit V] [AudioUnit A] {s : Core V A}
    (h : area.Admits s.cpu.regs.sp) : Grown area s [] s :=
  ⟨h, rfl, trivial, fun _ _ _ => rfl⟩

namespace StackOp

variable {V A : Type} [VideoUnit V] [AudioUnit A] {area : StackArea} {start s : Core V A}
  {stack stack' popped : List UInt16}

/-- An operation on the stack in memory is the one on the list. -/
theorem grown_run {op : StackOp} (h : Grown area start stack s)
    (hstart : area.Admits start.cpu.regs.sp) (happly : op.apply stack = some (stack', popped))
    (hadmits : area.Admits (op.run s).2.cpu.regs.sp) :
    (op.run s).1 = popped ∧ Grown area start stack' (op.run s).2 := by
  obtain ⟨hsp, hdepth, hholds, habove⟩ := h
  have hroom : s.cpu.regs.sp.toNat + 2 * stack.length ≤ area.high := hdepth ▸ hstart.2
  have hbelow {addr : UInt16} (hle : start.cpu.regs.sp ≤ addr) :
      s.cpu.regs.sp.toNat ≤ addr.toNat :=
    Nat.le_trans (hdepth ▸ Nat.le_add_right _ _) (UInt16.le_iff_toNat_le.mp hle)
  cases op with
  | push v =>
    obtain ⟨rfl, rfl⟩ := Prod.mk.inj (Option.some.inj happly)
    rw [run_push] at hadmits ⊢
    have hpushed : area.Admits (s.cpu.regs.sp - 2) := hadmits
    obtain ⟨-, htwo, -, -⟩ := hsp.push hpushed
    have hkept {addr : UInt16} (haddr : area.Contains addr)
        (hle : s.cpu.regs.sp.toNat ≤ addr.toNat) :
        (s.bus.pushWord s.cpu.regs.sp v).read addr = s.bus.read addr :=
      Bus.read_pushWord_of_le hsp hpushed haddr hle s.bus v
    refine ⟨rfl, hpushed, ?_, ⟨Bus.holdsWord_pushWord hsp hpushed s.bus v, ?_⟩, ?_⟩
    · rw [List.length_cons]
      dsimp only
      omega
    · have hback : s.cpu.regs.sp - 2 + 2 = s.cpu.regs.sp := by grind
      rw [hback]
      exact hholds.congr hsp hroom fun addr => hkept
    · intro addr haddr hle
      exact (hkept haddr (hbelow hle)).trans (habove addr haddr hle)
  | pop =>
    cases stack with
    | nil => cases happly
    | cons v rest =>
      obtain ⟨rfl, rfl⟩ := Prod.mk.inj (Option.some.inj happly)
      rw [List.length_cons] at hdepth hroom
      rw [run_pop] at hadmits ⊢
      have hpopped : area.Admits (s.cpu.regs.sp + 2) := hadmits
      obtain ⟨-, htwo, -, -⟩ := hsp.pop (by omega)
      have hkept {addr : UInt16} (haddr : area.Contains addr) :
          ((s.bus.advance Bus.accessCycles).advance Bus.accessCycles).read addr =
            s.bus.read addr := by
        rw [Bus.read_advance haddr, Bus.read_advance haddr]
      -- The word that is popped stays in memory, but the list no longer tells of it.
      refine ⟨?_, hpopped, ?_, hholds.2.congr hpopped ?_ fun addr haddr _ => hkept haddr, ?_⟩
      · rw [Bus.loadWord_of_holdsWord hholds.1 hsp (by omega)]
      · dsimp only
        omega
      · omega
      · intro addr haddr hle
        exact (hkept haddr).trans (habove addr haddr hle)
  | pass n =>
    obtain ⟨rfl, rfl⟩ := Prod.mk.inj (Option.some.inj happly)
    rw [run_pass]
    refine ⟨rfl, hsp, hdepth, hholds.congr hsp hroom fun addr haddr _ => ?_, ?_⟩
    · exact Bus.read_advance haddr s.bus n
    · intro addr haddr hle
      exact (Bus.read_advance haddr s.bus n).trans (habove addr haddr hle)

/-- Whatever the operations, the stack in memory goes the way of the list. -/
theorem grown_runAll {ops : List StackOp} (h : Grown area start stack s)
    (hstart : area.Admits start.cpu.regs.sp) (happly : applyAll ops stack = some (stack', popped))
    (hstays : StaysIn area ops s) :
    (runAll ops s).1 = popped ∧ Grown area start stack' (runAll ops s).2 := by
  induction ops generalizing s stack popped with
  | nil =>
    obtain ⟨rfl, rfl⟩ := Prod.mk.inj (Option.some.inj happly)
    exact ⟨rfl, h⟩
  | cons op ops ih =>
    rw [applyAll, Option.bind_eq_bind, Option.bind_eq_some_iff] at happly
    obtain ⟨⟨between, first⟩, hop, hrest⟩ := happly
    obtain ⟨⟨last, more⟩, hops, heq⟩ := Option.bind_eq_some_iff.mp hrest
    obtain ⟨rfl, rfl⟩ := Prod.mk.inj (Option.some.inj heq)
    obtain ⟨hfirst, hbetween⟩ := grown_run h hstart hop hstays.2.admits
    obtain ⟨hmore, hlast⟩ := ih hbetween hops hstays.2
    refine ⟨?_, hlast⟩
    rw [runAll, Exec.bind_apply, hfirst, Exec.bind_apply, hmore]
    rfl

end StackOp

end Handheld
