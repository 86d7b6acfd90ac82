import Handheld.Bus
import Mathlib.Tactic.ByContra

/-!
The memory map in numbers. The conditions by which an address is told its region overlap and are
asked in order; what comes out is a span of addresses for each region, and no two of them meet.
-/
namespace Handheld.Region

/-- The addresses of a region, as numbers. -/
def Spans : Region → Nat → Prop
  | cartridgeRom, a => a < 0x8000
  | cartridgeRam, a => 0xA000 ≤ a ∧ a < 0xC000
  | workRam, a => 0xC000 ≤ a ∧ a < 0xFE00
  | joypad, a => a = 0xFF00
  | timer, a => 0xFF04 ≤ a ∧ a ≤ 0xFF07
  | interruptFlag, a => a = 0xFF0F
  | sound, a => 0xFF10 ≤ a ∧ a ≤ 0xFF26
  | display, a => 0xFF40 ≤ a ∧ a ≤ 0xFF4B
  | interruptEnable, a => a = 0xFFFF
  | plain, a =>
    0x8000 ≤ a ∧ a < 0xA000 ∨ 0xFE00 ≤ a ∧ a < 0xFF00 ∨ 0xFF01 ≤ a ∧ a ≤ 0xFF03 ∨
      0xFF08 ≤ a ∧ a ≤ 0xFF0E ∨ 0xFF27 ≤ a ∧ a ≤ 0xFF3F ∨ 0xFF4C ≤ a ∧ a ≤ 0xFFFE

theorem Spans.ite {p : Prop} [Decidable p] {r r' : Region} {a : Nat} (h : p → r.Spans a)
    (h' : ¬p → r'.Spans a) : (if p then r else r').Spans a := by
  by_cases hp : p
  · rw [if_pos hp]
    exact h hp
  · rw [if_neg hp]
    exact h' hp

theorem spans_of (addr : UInt16) : (of addr).Spans addr.toNat := by
  have hlt := addr.toNat_lt
  unfold of
  simp only [UInt16.lt_iff_toNat_lt, UInt16.le_iff_toNat_le, ← UInt16.toNat_inj,
    UInt16.reduceToNat]
  generalize addr.toNat = a at hlt ⊢
  -- One goal for each region, with the conditions that have failed before it.
  repeat' refine Spans.ite (fun _ => ?_) fun _ => ?_
  all_goals
    simp only [Spans]
    omega

/-- No address belongs to two regions. -/
theorem Spans.unique {r r' : Region} {a : Nat} (h : r.Spans a) (h' : r'.Spans a) : r = r' := by
  by_contra hne
  cases r <;> cases r' <;> simp only [Spans, not_true_eq_false] at h h' hne <;> omega

theorem of_eq_iff {addr : UInt16} {r : Region} : of addr = r ↔ r.Spans addr.toNat := by
  constructor
  · rintro rfl
    exact spans_of addr
  · exact fun h => (spans_of addr).unique h

theorem of_eq_workRam_iff (addr : UInt16) :
    of addr = .workRam ↔ 0xC000 ≤ addr.toNat ∧ addr.toNat < 0xFE00 := of_eq_iff

end Handheld.Region
