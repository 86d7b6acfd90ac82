import Handheld.Proofs.Cartridge.Reachable
import Mathlib.Algebra.Ring.Nat

/-!
The emulated time of a cartridge clock. A running clock turns cycles into seconds only when
it looks at the time, and the looks come at uneven moments. Still no cycle is lost or
invented: the seconds by which the live registers have advanced and the cycles that are still
counted make up the cycles that have passed.
-/
namespace Handheld

namespace Clock

/-- The cycles from one state of a running clock to another: those of the seconds by which the
live registers advance, and those by which the count grows. -/
structure Passed (k : Clock) (cycles seconds : Nat) (k' : Clock) : Prop where
  mode_eq : k'.mode = k.mode
  live : k'.live = k.live.advance seconds
  cycles_eq : seconds * cyclesPerSecond + k'.subsecond = k.subsecond + cycles

theorem Passed.refl (k : Clock) : Passed k 0 0 k where
  mode_eq := rfl
  live := (ClockRegisters.advance_zero k.live).symm
  cycles_eq := by omega

theorem Passed.trans {k k' k'' : Clock} {m n s t : Nat} (first : Passed k m s k')
    (next : Passed k' n t k'') (hmasked : k.live.Masked) : Passed k (m + n) (s + t) k'' where
  mode_eq := next.mode_eq.trans first.mode_eq
  live := by rw [next.live, first.live, ClockRegisters.advance_add hmasked]
  cycles_eq := by
    have hfirst := first.cycles_eq
    have hnext := next.cycles_eq
    rw [Nat.add_mul]
    omega

theorem passed_latch (k : Clock) : Passed k 0 0 k.latch :=
  ⟨rfl, (Passed.refl k).live, (Passed.refl k).cycles_eq⟩

theorem counted_of_running {k : Clock} (h : k.live.halted = false) (cycles : Nat) :
    k.counted cycles = k.subsecond + cycles := by
  simp [counted, h]

/-- A step converts the whole seconds at a look, and none otherwise. -/
theorem passed_step {k : Clock} (hmode : k.mode = .emulated) (hrunning : k.live.halted = false)
    (cycles : Nat) : ∃ seconds, Passed k cycles seconds (k.step cycles) := by
  rw [step_of_emulated hmode, count_eq, count_eq]
  split
  · refine ⟨(k.subsecond + cycles) / cyclesPerSecond, rfl, ?_, ?_⟩
    · change k.live.advance (k.counted cycles / cyclesPerSecond) = _
      rw [counted_of_running hrunning]
    · change _ + k.counted cycles % cyclesPerSecond = _
      rw [counted_of_running hrunning]
      exact Nat.div_add_mod' _ _
  · refine ⟨0, rfl, (ClockRegisters.advance_zero k.live).symm, ?_⟩
    change _ + k.counted cycles = _
    rw [counted_of_running hrunning]
    omega

end Clock

namespace Cartridge

/-- Steps of a cartridge, between which anything may be written but the clock registers. -/
inductive Ticked (c : Cartridge) : List Nat → Cartridge → Prop
  | refl : Ticked c [] c
  | step {steps : List Nat} {d : Cartridge} (h : Ticked c steps d) (cycles : Nat) :
      Ticked c (steps ++ [cycles]) (d.step cycles)
  | write {steps : List Nat} {d : Cartridge} (h : Ticked c steps d) {addr : UInt16}
      (hother : d.clockField? addr = none) (v : UInt8) : Ticked c steps (d.write addr v)

variable {rom : ByteArray} {mode : ClockMode} {c d : Cartridge} {steps : List Nat}

theorem Ticked.reachable (h : Ticked c steps d) (hc : Reachable rom mode c) :
    Reachable rom mode d := by
  induction h with
  | refl => exact hc
  | step h cycles ih => exact ih.step cycles
  | write h hother v ih => exact ih.write _ v

/-- The cycles of the steps are those that pass on the clock. -/
theorem Ticked.passed {k : Clock} (h : Ticked c steps d) (hk : c.clock? = some k)
    (hmode : k.mode = .emulated) (hmasked : k.live.Masked) (hrunning : k.live.halted = false) :
    ∃ k' seconds, d.clock? = some k' ∧ Clock.Passed k steps.sum seconds k' := by
  induction h with
  | refl => exact ⟨k, 0, hk, .refl k⟩
  | @step steps d h cycles ih =>
    obtain ⟨k', seconds, hk', hpassed⟩ := ih
    have hrunning' : k'.live.halted = false := by
      rw [hpassed.live, ClockRegisters.halted_advance hmasked, hrunning]
    obtain ⟨more, hstep⟩ := Clock.passed_step (hpassed.mode_eq.trans hmode) hrunning' cycles
    refine ⟨k'.step cycles, seconds + more, ?_, ?_⟩
    · rw [clock?_step, hk']
      rfl
    · rw [List.sum_append, List.sum_singleton]
      exact hpassed.trans hstep hmasked
  | @write steps d h addr hother v ih =>
    obtain ⟨k', seconds, hk', hpassed⟩ := ih
    have hwrite := clock?_write d addr v
    rw [hother, hk'] at hwrite
    dsimp only at hwrite
    split at hwrite
    · exact ⟨k'.latch, seconds, hwrite, hpassed.trans (Clock.passed_latch k') hmasked⟩
    · exact ⟨k', seconds, hwrite, hpassed⟩

/-- A running clock that follows the emulated cycles loses and invents none of them, however
they are cut into steps and whatever is written in between, the clock registers apart. The
seconds that it shows are those of all the cycles, or one less if a second is over that waits
for the next look. -/
theorem emulated_cycles_conserved {k : Clock} (h : Reachable rom .emulated c)
    (hk : c.clock? = some k) (hrunning : k.live.halted = false) (hticked : Ticked c steps d) :
    ∃ k' seconds, d.clock? = some k' ∧ k'.live = k.live.advance seconds ∧
      seconds * cyclesPerSecond + k'.subsecond = k.subsecond + steps.sum ∧
      k'.subsecond < cyclesPerSecond + Clock.checkPeriod .emulated ∧
      seconds ≤ (k.subsecond + steps.sum) / cyclesPerSecond ∧
      (k.subsecond + steps.sum) / cyclesPerSecond ≤ seconds + 1 := by
  have hmode := h.mode_eq hk
  obtain ⟨k', seconds, hk', hpassed⟩ :=
    hticked.passed hk hmode (h.sound hk).live hrunning
  have hsound := (hticked.reachable h).sound hk'
  have hlt := hsound.subsecond_lt
  have hcheck := hsound.sinceCheck_lt
  rw [hpassed.mode_eq, hmode] at hcheck
  have hperiod : Clock.checkPeriod .emulated < cyclesPerSecond := by decide
  have hsum := hpassed.cycles_eq
  refine ⟨k', seconds, hk', hpassed.live, hsum, by omega, ?_, ?_⟩
  · rw [Nat.le_div_iff_mul_le cyclesPerSecond_pos]
    omega
  · apply Nat.le_of_lt_succ
    rw [Nat.div_lt_iff_lt_mul cyclesPerSecond_pos, Nat.succ_eq_add_one, Nat.add_mul, Nat.add_mul]
    omega

/-- A cycle less than a second, a latching, and the cycles past another look. -/
def latchedBetween : Cartridge :=
  ((((timerCartridge .emulated).step 4194303).write 0x6000 0).write 0x6000 1).step 131073

theorem ticked_latchedBetween :
    Ticked (timerCartridge .emulated) [4194303, 131073] latchedBetween :=
  .step (.write (.write (.step .refl 4194303) (by decide +kernel) 0) (by decide +kernel) 1) 131073

/-- The second is over when the last look is made, and the other cycles are kept. -/
theorem emulated_cycles_conserved_latchedBetween :
    (Clock.start .emulated (.fixed 0)).live.halted = false ∧
      ∃ k', latchedBetween.clock? = some k' ∧ k'.live = ⟨1, 0, 0, 0, 0⟩ ∧
        k'.subsecond = 131072 := by
  have hrunning : (Clock.start .emulated (.fixed 0)).live.halted = false := rfl
  obtain ⟨k', seconds, hk', hlive, hsum, hlt, hle, -⟩ :=
    emulated_cycles_conserved (.ofRom (.fixed 0)) (clock?_timerCartridge .emulated) hrunning
      ticked_latchedBetween
  have hcycles : seconds * 4194304 + k'.subsecond = 4325376 := hsum
  have hbound : k'.subsecond < 4325376 := hlt
  have hmost : seconds ≤ 1 := hle
  have hone : seconds = 1 := by omega
  refine ⟨hrunning, k', hk', ?_, by omega⟩
  rw [hlive, hone]
  exact ClockRegisters.advance_one ClockRegisters.masked_cleared

end Cartridge

end Handheld
