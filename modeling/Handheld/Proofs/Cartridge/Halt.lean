import Handheld.Proofs.Cartridge.Reachable
import Mathlib.Algebra.Ring.Nat

/-!
A halted cartridge clock. One that follows the host stands still. One that follows the
emulated cycles counts no more of them, but the look at the time does not ask for the halt
bit: if a second was over when the clock was halted and no look had been made since, the next
look still advances the live registers by that second. After it they stand still.
-/
namespace Handheld

namespace ClockRegisters

theorem secondTick_ne (r : ClockRegisters) : r.secondTick ≠ r := by
  intro heq
  have hseconds := congrArg ClockRegisters.seconds heq
  by_cases hlast : r.seconds = 59
  · rw [secondTick, if_pos hlast, seconds_minuteTick, hlast] at hseconds
    cases hseconds
  · rw [secondTick_of_ne hlast] at hseconds
    have hvalue := congrArg UInt8.toNat hseconds
    rw [UInt8.toNat_ofNat'] at hvalue
    omega

end ClockRegisters

namespace Clock

/-- A second is over and waits for the next look at the time. -/
def OwesSecond (k : Clock) : Prop := k.mode = .emulated ∧ cyclesPerSecond ≤ k.subsecond

instance (k : Clock) : Decidable k.OwesSecond := inferInstanceAs (Decidable (_ ∧ _))

theorem counted_of_halted {k : Clock} (hhalted : k.live.halted = true) (cycles : Nat) :
    k.counted cycles = k.subsecond := by
  simp [counted, hhalted]

theorem live_step_of_wall {k : Clock} (hwall : k.mode = .wall) (hhalted : k.live.halted = true)
    (cycles : Nat) : (k.step cycles).live = k.live := by
  rw [step_of_wall hwall]
  split
  · simp [synchronize, hhalted]
  · rfl

/-- Before a look nothing changes but the cycles since the last one. -/
theorem step_of_early {k : Clock} (hmode : k.mode = .emulated) (hhalted : k.live.halted = true)
    {cycles : Nat} (hearly : k.sinceCheck + cycles < checkPeriod .emulated) :
    k.step cycles = { k with sinceCheck := k.sinceCheck + cycles } := by
  rw [step_of_emulated hmode, if_neg (Nat.not_le_of_lt hearly), count_eq]
  change { k with sinceCheck := _, subsecond := k.counted cycles } = _
  rw [counted_of_halted hhalted]

/-- A look converts what has been counted. -/
theorem step_of_due {k : Clock} (hmode : k.mode = .emulated) (hhalted : k.live.halted = true)
    {cycles : Nat} (hdue : checkPeriod .emulated ≤ k.sinceCheck + cycles) :
    k.step cycles =
      { k with
        sinceCheck := 0
        subsecond := k.subsecond % cyclesPerSecond
        live := k.live.advance (k.subsecond / cyclesPerSecond) } := by
  rw [step_of_emulated hmode, if_pos hdue, count_eq]
  change { k with
    sinceCheck := 0
    subsecond := k.counted cycles % cyclesPerSecond
    live := k.live.advance (k.counted cycles / cyclesPerSecond) } = _
  rw [counted_of_halted hhalted]

/-- A halted clock that owes no second stands still in a step. -/
theorem still_step {k : Clock} (hhalted : k.live.halted = true) (hnone : ¬k.OwesSecond)
    (cycles : Nat) : (k.step cycles).live = k.live ∧ ¬(k.step cycles).OwesSecond := by
  cases hmode : k.mode with
  | wall =>
    refine ⟨live_step_of_wall hmode hhalted cycles, fun howes => ?_⟩
    rw [OwesSecond, mode_step, hmode] at howes
    cases howes.1
  | emulated =>
    have hlt : k.subsecond < cyclesPerSecond := by
      by_contra hle
      exact hnone ⟨hmode, Nat.le_of_not_lt hle⟩
    by_cases hdue : checkPeriod .emulated ≤ k.sinceCheck + cycles
    · rw [step_of_due hmode hhalted hdue, Nat.div_eq_of_lt hlt, Nat.mod_eq_of_lt hlt]
      exact ⟨ClockRegisters.advance_zero _, hnone⟩
    · rw [step_of_early hmode hhalted (Nat.lt_of_not_le hdue)]
      exact ⟨rfl, hnone⟩

theorem still_foldl_step {k : Clock} (hhalted : k.live.halted = true) (hnone : ¬k.OwesSecond)
    (steps : List Nat) : (steps.foldl step k).live = k.live := by
  induction steps generalizing k with
  | nil => rfl
  | cons cycles rest ih =>
    obtain ⟨hlive, hnone'⟩ := still_step hhalted hnone cycles
    rw [List.foldl_cons, ih (hlive ▸ hhalted) hnone', hlive]

/-- A sound clock never owes more than one second. -/
theorem Sound.subsecond_div {k : Clock} (h : k.Sound) (howes : k.OwesSecond) :
    k.subsecond / cyclesPerSecond = 1 := by
  obtain ⟨hmode, hle⟩ := howes
  have hlt := h.subsecond_lt
  have hcheck := h.sinceCheck_lt
  have hperiod : checkPeriod .emulated < cyclesPerSecond := by decide
  rw [hmode] at hcheck
  exact (Nat.div_eq_iff cyclesPerSecond_pos).mpr (by omega)

/-- The look pays the second that is owed. -/
theorem paid_step {k : Clock} (h : k.Sound) (hhalted : k.live.halted = true)
    (howes : k.OwesSecond) {cycles : Nat}
    (hdue : checkPeriod .emulated ≤ k.sinceCheck + cycles) :
    (k.step cycles).live = k.live.secondTick ∧ ¬(k.step cycles).OwesSecond := by
  rw [step_of_due howes.1 hhalted hdue, h.subsecond_div howes]
  refine ⟨ClockRegisters.advance_one h.live, fun howes' => ?_⟩
  exact absurd howes'.2 (Nat.not_le_of_lt (Nat.mod_lt _ cyclesPerSecond_pos))

/-- Steps change the live registers of a halted clock only by a second that it owes, which is
paid as soon as a look is due. -/
theorem live_foldl_step {k : Clock} (h : k.Sound) (hhalted : k.live.halted = true)
    (steps : List Nat) :
    (steps.foldl step k).live =
      if k.OwesSecond ∧ checkPeriod .emulated ≤ k.sinceCheck + steps.sum then k.live.secondTick
      else k.live := by
  induction steps generalizing k with
  | nil =>
    refine (if_neg fun hlook => ?_).symm
    have hcheck := h.sinceCheck_lt
    rw [hlook.1.1] at hcheck
    exact absurd hlook.2 (Nat.not_le_of_lt hcheck)
  | cons cycles rest ih =>
    rw [List.sum_cons]
    by_cases howes : k.OwesSecond
    · by_cases hdue : checkPeriod .emulated ≤ k.sinceCheck + cycles
      · obtain ⟨hlive, hnone⟩ := paid_step h hhalted howes hdue
        have hhalted' : (k.step cycles).live.halted = true := by
          rw [hlive, ClockRegisters.halted_secondTick, hhalted]
        rw [List.foldl_cons, still_foldl_step hhalted' hnone, hlive,
          if_pos ⟨howes, by omega⟩]
      · have hearly := step_of_early howes.1 hhalted (Nat.lt_of_not_le hdue)
        have hsound := h.step cycles
        rw [hearly] at hsound
        rw [List.foldl_cons, hearly, ih hsound hhalted, ← Nat.add_assoc]
        rfl
    · rw [still_foldl_step hhalted howes, if_neg fun hlook => howes hlook.1]

theorem halted_live_foldl_step {k : Clock} (h : k.Sound) (hhalted : k.live.halted = true)
    (steps : List Nat) : (steps.foldl step k).live.halted = true := by
  rw [live_foldl_step h hhalted]
  split
  · rw [ClockRegisters.halted_secondTick, hhalted]
  · exact hhalted

end Clock

namespace Cartridge

variable {rom : ByteArray} {mode : ClockMode} {c : Cartridge}

theorem clock?_foldl_step (c : Cartridge) (steps : List Nat) :
    (steps.foldl step c).clock? = c.clock?.map (steps.foldl Clock.step) := by
  induction steps generalizing c with
  | nil => exact Option.map_id'.symm
  | cons cycles rest ih =>
    rw [List.foldl_cons, ih, clock?_step, Option.map_map]
    rfl

/-- Whatever the steps, a halted clock stays halted and its live registers change only by a
second: one that was over before, under the emulated mode, once the steps reach the next look
at the time. -/
theorem halted_clock_changes_iff {k : Clock} (h : Reachable rom mode c) (hk : c.clock? = some k)
    (hhalted : k.live.halted = true) (steps : List Nat) :
    ∃ k', (steps.foldl step c).clock? = some k' ∧ k'.live.halted = true ∧
      (k'.live ≠ k.live ↔
        mode = .emulated ∧ cyclesPerSecond ≤ k.subsecond ∧
          Clock.checkPeriod .emulated ≤ k.sinceCheck + steps.sum) ∧
      (k'.live ≠ k.live → k'.live = k.live.secondTick) := by
  have hsound := h.sound hk
  have hlive := Clock.live_foldl_step hsound hhalted steps
  have hmode := h.mode_eq hk
  refine ⟨steps.foldl Clock.step k, ?_, Clock.halted_live_foldl_step hsound hhalted steps, ?_, ?_⟩
  · rw [clock?_foldl_step, hk]
    rfl
  · rw [hlive, ← hmode, ← and_assoc]
    split
    · next hlook => exact iff_of_true (ClockRegisters.secondTick_ne _) hlook
    · next hlook => exact iff_of_false (fun hne => hne rfl) hlook
  · rw [hlive]
    split
    · exact fun _ => rfl
    · exact fun hne => absurd rfl hne

/-- A cartridge whose clock is halted just after a second is over, long before the next look. -/
def haltedLate : Cartridge :=
  (((((timerCartridge .emulated).step 4194300).step 8).write 0x0000 0x0A).write 0x4000
    0x0C).write 0xA000 0x40

theorem reachable_haltedLate : Reachable timerRom .emulated haltedLate :=
  .write (.write (.write (.step (.step (.ofRom (.fixed 0)) 4194300) 8) 0x0000 0x0A) 0x4000 0x0C)
    0xA000 0x40

theorem clock?_haltedLate :
    haltedLate.clock?.map (fun k => (k.live, k.subsecond, k.sinceCheck)) =
      some (⟨0, 0, 0, 0, 0x40⟩, 4194308, 8) := by
  decide +kernel

theorem exists_clock_haltedLate :
    ∃ k, haltedLate.clock? = some k ∧ k.live = ⟨0, 0, 0, 0, 0x40⟩ ∧ k.subsecond = 4194308 ∧
      k.sinceCheck = 8 := by
  obtain ⟨k, hk, heq⟩ := Option.map_eq_some_iff.mp clock?_haltedLate
  obtain ⟨hlive, hcounts⟩ := Prod.mk.inj heq
  obtain ⟨hsubsecond, hcheck⟩ := Prod.mk.inj hcounts
  exact ⟨k, hk, hlive, hsubsecond, hcheck⟩

/-- The halted clock of that cartridge goes on by a second. -/
theorem halted_clock_changes_iff_haltedLate :
    ∃ k k', haltedLate.clock? = some k ∧ k.live.halted = true ∧
      ([131064].foldl step haltedLate).clock? = some k' ∧ k'.live = k.live.secondTick := by
  obtain ⟨k, hk, hlive, hsubsecond, hcheck⟩ := exists_clock_haltedLate
  have hhalted : k.live.halted = true := by
    rw [hlive]
    decide
  obtain ⟨k', hk', -, hiff, htick⟩ :=
    halted_clock_changes_iff reachable_haltedLate hk hhalted [131064]
  refine ⟨k, k', hk, hhalted, hk', htick (hiff.mpr ⟨rfl, ?_, ?_⟩)⟩
  · rw [hsubsecond]
    decide
  · rw [hcheck]
    decide

/-- A halted clock does not always stand still. -/
theorem not_halted_clock_still :
    ¬∀ (rom : ByteArray) (mode : ClockMode) (c : Cartridge) (k : Clock), Reachable rom mode c →
      c.clock? = some k → k.live.halted = true → ∀ steps : List Nat,
        (steps.foldl step c).clock?.map (·.live) = some k.live := by
  intro hclaim
  obtain ⟨k, hk, hlive, -⟩ := exists_clock_haltedLate
  have hhalted : k.live.halted = true := by
    rw [hlive]
    decide
  have hstill := hclaim _ _ _ k reachable_haltedLate hk hhalted [131064]
  have hticked : ([131064].foldl step haltedLate).clock?.map (·.live) =
      some ⟨1, 0, 0, 0, 0x40⟩ := by decide +kernel
  rw [hticked, hlive] at hstill
  cases hstill

end Cartridge

end Handheld
