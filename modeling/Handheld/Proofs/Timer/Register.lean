import Handheld.Proofs.Timer.MachineCycle

/-!
Writes to the registers of the timer between machine cycles. None of them makes a reload, and
each leaves a timer that four cycles bring back between machine cycles.
-/
namespace Handheld

namespace Timer

variable {t : Timer}

theorem Aligned.reloads_eq (h : t.Aligned) : t.reloads = false := by
  apply Bool.eq_false_iff.mpr
  intro hreloads
  obtain ⟨value, hdue⟩ := t.reloads_iff.mp hreloads
  obtain ⟨-, hdelay, -⟩ := h.pending _ _ hdue
  cases hdelay

theorem Aligned.reloaded_eq (h : t.Aligned) : t.reloaded = t.counter :=
  reloaded_of_not_reloads h.reloads_eq

theorem clearDivider_eq (t : Timer) :
    t.clearDivider =
      ({ t with divider := 0, counter := t.reloaded, overflow := t.overflow.next }.edge t.signal,
        requests t.reloads) := by
  unfold clearDivider
  rw [tickReload_eq]
  rfl

theorem signalOf_zero (control : UInt8) : signalOf 0 control = false := by
  rw [signalOf, UInt16.toNat_zero, Nat.zero_testBit, Bool.and_false]

/-- A fall that a write makes leaves nothing to fall soon. -/
theorem steady_edge (before : Bool) (hmod : t.divider.toNat % 4 = 0) (hold : t.oldModulo = none)
    (hpending : ∀ value delay, t.overflow = .pending value delay →
      value = t.modulo ∧ delay ≤ reloadDelay ∧ t.fallsSoon = false) :
    (t.edge before).Steady := by
  rw [edge_eq]
  refine ⟨hmod, rfl, ?_⟩
  intro value delay hafter
  change value = t.modulo ∧ delay ≤ reloadDelay ∧ t.fallsSoon = false
  dsimp only at hafter
  split at hafter
  · next hfull =>
    simp only [Bool.and_eq_true, Bool.not_eq_true'] at hfull
    rw [hold] at hafter
    cases hafter
    refine ⟨rfl, Nat.le_refl _, ?_⟩
    rw [fallsSoon, hfull.1.2, Bool.false_and]
  · exact hpending value delay hafter

theorem Aligned.steady_clearDivider (h : t.Aligned) : t.clearDivider.1.Steady := by
  rw [clearDivider_eq]
  refine steady_edge _ rfl h.oldModulo_eq ?_
  intro value delay hnext
  obtain ⟨hvalue, hdelay, -⟩ := h.pending _ _ (Overflow.next_eq_pending hnext)
  refine ⟨hvalue, by omega, ?_⟩
  rw [fallsSoon, signal, signalOf_zero, Bool.false_and]

theorem Aligned.steady_writeControl (h : t.Aligned) (v : UInt8) : (t.writeControl v).Steady := by
  refine steady_edge _ h.divider_mod h.oldModulo_eq ?_
  intro value delay hpending
  obtain ⟨hvalue, hdelay, hmod⟩ := h.pending _ _ hpending
  exact ⟨hvalue, Nat.le_of_eq hdelay, fallsSoon_of_mod hmod⟩

/-- Writing the counter cancels a reload that is still to come. -/
theorem Aligned.writeCounter_of_pending (h : t.Aligned) {value : UInt8} {delay : Nat}
    (hpending : t.overflow = .pending value delay) (v : UInt8) :
    t.writeCounter v = { t with counter := v, overflow := .idle } := by
  obtain ⟨-, rfl, -⟩ := h.pending _ _ hpending
  simp only [writeCounter, hpending, reloadDelay]

/-- Only in the cycle after a reload does writing the counter do nothing. -/
theorem Aligned.writeCounter_of_not_reloading (h : t.Aligned) (hnot : t.overflow ≠ .reloading)
    (v : UInt8) : t.writeCounter v = { t with counter := v, overflow := .idle } := by
  cases hoverflow : t.overflow with
  | idle =>
    simp only [writeCounter, hoverflow]
  | pending value delay => exact h.writeCounter_of_pending hoverflow v
  | reloading => exact absurd hoverflow hnot

theorem writeCounter_of_reloading (hreloading : t.overflow = .reloading) (v : UInt8) :
    t.writeCounter v = t := by
  simp only [writeCounter, hreloading]

theorem Aligned.steady_writeCounter (h : t.Aligned) (v : UInt8) : (t.writeCounter v).Steady := by
  by_cases hreloading : t.overflow = .reloading
  · rw [writeCounter_of_reloading hreloading]
    exact h.steady
  · rw [h.writeCounter_of_not_reloading hreloading]
    exact ⟨h.divider_mod, h.lastSignal_eq, nofun⟩

theorem Aligned.steady_writeModulo (h : t.Aligned) (v : UInt8) : (t.writeModulo v).Steady := by
  unfold writeModulo
  dsimp only
  cases hoverflow : t.overflow with
  | idle => exact ⟨h.divider_mod, h.lastSignal_eq, nofun⟩
  | reloading => exact ⟨h.divider_mod, h.lastSignal_eq, nofun⟩
  | pending value delay =>
    obtain ⟨-, hdelay, hmod⟩ := h.pending _ _ hoverflow
    refine ⟨h.divider_mod, h.lastSignal_eq, ?_⟩
    intro value' delay' hpending
    cases hpending
    exact ⟨rfl, Nat.le_of_eq hdelay, fallsSoon_of_mod hmod⟩

theorem Aligned.steady_write (h : t.Aligned) (addr : UInt16) (v : UInt8) :
    (t.write addr v).1.Steady := by
  unfold write
  split
  · exact h.steady_clearDivider
  · exact h.steady_writeCounter v
  · exact h.steady_writeModulo v
  · exact h.steady_writeControl v
  · exact h.steady

theorem Aligned.raised_write (h : t.Aligned) (addr : UInt16) (v : UInt8) :
    (t.write addr v).2 = 0 := by
  unfold write
  split
  · rw [clearDivider_eq, h.reloads_eq]
    rfl
  all_goals rfl

/-- Whether a write makes the watched bit fall. -/
def fallsOnWrite (t : Timer) (addr : UInt16) (v : UInt8) : Bool :=
  match addr with
  | 0xFF04 => t.signal
  | 0xFF07 => t.signal && !signalOf t.divider (v &&& 0x07)
  | _ => false

/-- Whether a write makes the counter overflow. -/
def overflowsOnWrite (t : Timer) (addr : UInt16) (v : UInt8) : Bool :=
  t.fallsOnWrite addr v && t.counter == 0xFF

theorem overflow_edge {before : Bool} (hfalls : (before && !t.signal) = true)
    (hfull : t.counter = 0xFF) (hold : t.oldModulo = none) :
    (t.edge before).overflow = .pending t.modulo reloadDelay := by
  rw [edge_eq]
  dsimp only
  rw [hfalls, hfull, hold]
  rfl

theorem Aligned.overflow_write (h : t.Aligned) {addr : UInt16} {v : UInt8}
    (hoverflows : t.overflowsOnWrite addr v = true) :
    (t.write addr v).1.overflow = .pending t.modulo reloadDelay := by
  rw [overflowsOnWrite, Bool.and_eq_true, beq_iff_eq] at hoverflows
  obtain ⟨hfalls, hfull⟩ := hoverflows
  unfold fallsOnWrite at hfalls
  split at hfalls
  · change t.clearDivider.1.overflow = _
    rw [clearDivider_eq]
    refine overflow_edge ?_ (h.reloaded_eq.trans hfull) h.oldModulo_eq
    rw [hfalls, signal, signalOf_zero]
    rfl
  · exact overflow_edge hfalls hfull h.oldModulo_eq
  · cases hfalls

end Timer

end Handheld
