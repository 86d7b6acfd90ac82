import Handheld.Proofs.Activity

/-!
The cells behind the addresses. What no device serves is kept in a cell, and two addresses share
one only in the work RAM, which repeats. A cell changes by a write to an address of its own; the
cells of the object table are changed by page transfers besides.
-/
namespace Handheld

namespace Bus

/-- A byte of the bus itself. -/
inductive Cell
  | work (i : Fin 0x2000)
  | plain (i : Fin 0x10000)
  deriving DecidableEq

/-- The cell behind an address, whether or not a device stands before it. -/
def cellAt (addr : UInt16) : Cell :=
  if Region.of addr = .workRam then .work (workCell addr) else .plain (plainCell addr)

/-- Whether page transfers go to a cell. -/
def Cell.InObjectTable : Cell → Prop
  | work _ => False
  | plain i => objectTable.toNat ≤ i.val ∧ i.val < objectTable.toNat + objectTableSize

variable {V A : Type} [VideoUnit V] [AudioUnit A]

def byteAt (b : Bus V A) : Cell → UInt8
  | .work i => b.workRam.get i
  | .plain i => b.storage.get i

def setCell (b : Bus V A) (c : Cell) (v : UInt8) : Bus V A :=
  match c with
  | .work i => { b with workRam := b.workRam.set i v }
  | .plain i => { b with storage := b.storage.set i v }

/-- Whether no device stands before the cell of an address. -/
def isCell (b : Bus V A) (addr : UInt16) : Bool :=
  match Region.of addr with
  | .cartridgeRom => !b.slot.isSome
  | .cartridgeRam => !Slot.hasRam b.slot
  | .sound => !b.audio.isSome
  | .workRam | .plain => true
  | _ => false

omit [VideoUnit V] [AudioUnit A] in
theorem byteAt_setCell (b : Bus V A) (c d : Cell) (v : UInt8) :
    (b.setCell c v).byteAt d = if c = d then v else b.byteAt d := by
  cases c with
  | work i =>
    cases d with
    | work j => simp only [setCell, byteAt, Memory.get_set, Cell.work.injEq]
    | plain j => rfl
  | plain i =>
    cases d with
    | work j => rfl
    | plain j => simp only [setCell, byteAt, Memory.get_set, Cell.plain.injEq]

omit [VideoUnit V] [AudioUnit A] in
theorem byteAt_writePlain (b : Bus V A) (addr : UInt16) (v : UInt8) {c : Cell}
    (h : .plain (plainCell addr) ≠ c) : (b.writePlain addr v).byteAt c = b.byteAt c := by
  have hset := b.byteAt_setCell (.plain (plainCell addr)) c v
  rwa [if_neg h] at hset

theorem cellAt_of_region {addr : UInt16} (h : Region.of addr ≠ .workRam) :
    cellAt addr = .plain (plainCell addr) := if_neg h

theorem read_of_isCell {b : Bus V A} {addr : UInt16} (h : b.isCell addr = true) :
    b.read addr = b.byteAt (cellAt addr) := by
  unfold isCell at h
  unfold read cellAt
  cases hregion : Region.of addr with
  | cartridgeRom =>
    rw [hregion] at h
    cases hslot : b.slot with
    | none => rfl
    | some c => simp [hslot] at h
  | cartridgeRam =>
    rw [hregion] at h
    cases hslot : b.slot with
    | none => rfl
    | some c =>
      have hram : c.hasRam = false := by simpa [hslot, Slot.hasRam] using h
      simp only [hram]
      rfl
  | sound =>
    rw [hregion] at h
    cases haudio : b.audio with
    | none => rfl
    | some a => simp [haudio] at h
  | workRam => rfl
  | plain => rfl
  | _ =>
    rw [hregion] at h
    cases h

theorem write_of_isCell {b : Bus V A} {addr : UInt16} (h : b.isCell addr = true) (v : UInt8) :
    b.write addr v = b.setCell (cellAt addr) v := by
  unfold isCell at h
  unfold write cellAt
  cases hregion : Region.of addr with
  | cartridgeRom =>
    rw [hregion] at h
    have hslot : b.slot.isSome = false := by simpa using h
    simp only [hslot]
    rfl
  | cartridgeRam =>
    rw [hregion] at h
    have hram : Slot.hasRam b.slot = false := by simpa using h
    simp only [hram]
    rfl
  | sound =>
    rw [hregion] at h
    cases haudio : b.audio with
    | none => rfl
    | some a => simp [haudio] at h
  | workRam => rfl
  | plain => rfl
  | _ =>
    rw [hregion] at h
    cases h

/-- A page transfer changes no other cell than those of the object table. -/
theorem byteAt_transferPage (b : Bus V A) (page : UInt8) {c : Cell} (h : ¬c.InObjectTable) :
    (b.transferPage page).byteAt c = b.byteAt c := by
  unfold transferPage
  -- Each byte is read from a bus that the bytes before have changed, so the bus is arbitrary.
  suffices hcopy : ∀ (indices : List Nat), (∀ i ∈ indices, i < objectTableSize) →
      ∀ b : Bus V A, (indices.foldl (fun b i => b.writePlain (objectTable + UInt16.ofNat i)
        (b.read (Word.join page 0 + UInt16.ofNat i))) b).byteAt c = b.byteAt c from
    hcopy _ (fun i => List.mem_range.mp) b
  intro indices hindices
  induction indices with
  | nil => exact fun b => rfl
  | cons i rest ih =>
    intro b
    obtain ⟨hi, hrest⟩ := List.forall_mem_cons.mp hindices
    rw [List.foldl_cons, ih hrest]
    refine b.byteAt_writePlain _ _ ?_
    rintro rfl
    have hcell : (plainCell (objectTable + UInt16.ofNat i)).val = objectTable.toNat + i := by
      have htable : objectTable.toNat = 65024 := rfl
      have hi : i < 160 := hi
      change (objectTable + UInt16.ofNat i).toNat = _
      rw [UInt16.toNat_add, UInt16.toNat_ofNat', htable]
      omega
    refine h ⟨?_, ?_⟩
    · rw [hcell]
      exact Nat.le_add_right _ i
    · rw [hcell]
      exact Nat.add_lt_add_left hi _

/-- A write elsewhere leaves a cell alone. -/
theorem byteAt_write {addr : UInt16} {c : Cell} (hother : cellAt addr ≠ c)
    (htable : ¬c.InObjectTable) (b : Bus V A) (v : UInt8) :
    (b.write addr v).byteAt c = b.byteAt c := by
  have hplain (hregion : Region.of addr ≠ .workRam) (b : Bus V A) :
      (b.writePlain addr v).byteAt c = b.byteAt c :=
    b.byteAt_writePlain addr v (cellAt_of_region hregion ▸ hother)
  unfold write
  cases hregion : Region.of addr with
  | cartridgeRom =>
    dsimp only
    split
    · rfl
    · exact hplain (by simp [hregion]) b
  | cartridgeRam =>
    dsimp only
    split
    · rfl
    · exact hplain (by simp [hregion]) b
  | workRam =>
    have hset := b.byteAt_setCell (.work (workCell addr)) c v
    rw [cellAt, if_pos hregion] at hother
    rwa [if_neg hother] at hset
  | sound =>
    dsimp only
    split
    · rfl
    · exact hplain (by simp [hregion]) b
  | display =>
    dsimp only [writeVideo]
    split
    · exact byteAt_transferPage _ v htable
    · rfl
  | plain => exact hplain (by simp [hregion]) b
  | _ => rfl

/-- Time and the buttons change no cell. -/
theorem byteAt_perform {a : Act} {c : Cell} (hother : ∀ addr v, a = .write addr v → cellAt addr ≠ c)
    (htable : ¬c.InObjectTable) (b : Bus V A) : (b.perform a).byteAt c = b.byteAt c := by
  cases a with
  | write addr v => exact byteAt_write (hother addr v rfl) htable b v
  | button button pressed =>
    rw [perform, setButton]
    dsimp only
    split <;> rfl
  | _ => rfl

/-- Acts that do not write to a cell leave it alone. -/
theorem byteAt_performAll {acts : List Act} {c : Cell}
    (hother : ∀ addr v, .write addr v ∈ acts → cellAt addr ≠ c) (htable : ¬c.InObjectTable)
    (b : Bus V A) : (b.performAll acts).byteAt c = b.byteAt c := by
  induction acts generalizing b with
  | nil => rfl
  | cons a acts ih =>
    rw [performAll, ih fun addr v hmem => hother addr v (List.mem_cons_of_mem a hmem)]
    refine byteAt_perform (fun addr v ha => hother addr v ?_) htable b
    exact ha ▸ List.mem_cons_self

end Bus

end Handheld
