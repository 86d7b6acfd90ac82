import Handheld.Proofs.Video.Samples
import Mathlib.Algebra.Ring.Nat

/-!
Where the beam is. While the display is on, the beam goes through the frame a cycle after the
other and returns to its start after the last line, whatever is written to the other registers.
-/
namespace Handheld.Lcd

/-- The cycles of 154 lines. -/
def frameCycles : Nat := lineCycles * 154

/-- The cycles since the beam was at the start of the frame. -/
def place (v : Lcd) : Nat := lineCycles * v.line.toNat + v.lineClock

/-- The display is on, and its beam is where it is after `time` cycles from the start of a
frame. -/
structure At (time : Nat) (v : Lcd) : Prop where
  enabled : v.enabled = true
  line_lt : v.line.toNat < 154
  lineClock_lt : v.lineClock < lineCycles
  place_eq : v.place = time % frameCycles

theorem at_postBoot : At 0 postBoot where
  enabled := rfl
  line_lt := by decide
  lineClock_lt := by decide
  place_eq := rfl

variable {v : Lcd} {time : Nat}

theorem At.line_eq (h : v.At time) : v.line.toNat = time / 456 % 154 := by
  have hclock := h.lineClock_lt
  have hplace := h.place_eq
  unfold place frameCycles lineCycles at hplace
  unfold lineCycles at hclock
  omega

theorem enabled_moveBeam (v : Lcd) (n : Nat) : (v.moveBeam n).1.enabled = v.enabled := by
  unfold moveBeam
  dsimp only
  split <;> rfl

/-- The line that follows another one. -/
theorem toNat_nextLine {line : UInt8} (h : line.toNat < 154) :
    ((line + 1) % totalLines).toNat = (line.toNat + 1) % 154 := by
  have hone : (1 : UInt8).toNat = 1 := rfl
  have htotal : totalLines.toNat = 154 := rfl
  rw [UInt8.toNat_mod, UInt8.toNat_add, hone, htotal]
  omega

/-- The beam moves on by less than a line at a time. -/
theorem At.moveBeam (h : v.At time) {n : Nat} (hn : n ≤ lineCycles) :
    (v.moveBeam n).1.At (time + n) := by
  have hline := h.line_lt
  have hclock := h.lineClock_lt
  have hplace := h.place_eq
  have henabled := (enabled_moveBeam v n).trans h.enabled
  unfold place frameCycles at hplace
  unfold Lcd.moveBeam at henabled ⊢
  dsimp only at henabled ⊢
  split at henabled
  · next hwithin =>
    rw [if_pos hwithin]
    refine ⟨henabled, hline, hwithin, ?_⟩
    simp only [place, frameCycles]
    unfold lineCycles at hplace hwithin hn hclock ⊢
    omega
  · next hpast =>
    have hnext := toNat_nextLine hline
    rw [if_neg hpast]
    refine ⟨henabled, ?_, ?_, ?_⟩
    · dsimp only
      rw [hnext]
      omega
    · dsimp only
      omega
    · simp only [place, frameCycles]
      rw [hnext]
      unfold lineCycles at hplace hpast hn hclock ⊢
      omega

theorem At.advance (h : v.At time) {n : Nat} (hn : n ≤ lineCycles) :
    (v.advance n).1.At (time + n) := by
  obtain ⟨henabled, hline, hclock, hplace⟩ := h.moveBeam hn
  exact ⟨henabled, hline, hclock, hplace⟩

theorem At.pass {ns : List Nat} (h : v.At time) (hns : ∀ n ∈ ns, n ≤ lineCycles) :
    (Lcd.pass ns v).At (time + ns.sum) := by
  induction ns generalizing v time with
  | nil => exact h
  | cons n ns ih =>
    have hfirst := h.advance (hns n List.mem_cons_self)
    have hrest := ih hfirst fun m hm => hns m (List.mem_cons_of_mem n hm)
    rw [List.sum_cons, ← Nat.add_assoc]
    exact hrest

theorem sum_pieces (cycles : Nat) : (pieces cycles).sum = cycles := by
  have hsplit := Nat.div_add_mod' cycles samplePeriod
  rw [pieces, List.sum_append, List.sum_replicate_nat]
  split
  · next hrest => rw [List.sum_nil]; omega
  · rw [List.sum_singleton, hsplit]

theorem le_samplePeriod_of_mem_pieces {cycles n : Nat} (h : n ∈ pieces cycles) :
    n ≤ samplePeriod := by
  rw [pieces, List.mem_append] at h
  rcases h with h | h
  · rw [List.eq_of_mem_replicate h]
  · have hrest : cycles % samplePeriod < samplePeriod := Nat.mod_lt _ (by decide)
    split at h
    · cases h
    · rw [List.mem_singleton.mp h]
      omega

theorem samplePeriod_le_lineCycles : samplePeriod ≤ lineCycles := by decide

theorem le_of_mem_pieces {cycles n : Nat} (h : n ∈ pieces cycles) : n ≤ lineCycles :=
  Nat.le_trans (le_samplePeriod_of_mem_pieces h) samplePeriod_le_lineCycles

/-- A step moves the beam on by its cycles. -/
theorem At.step (h : v.At time) (cycles : Nat) : (v.step cycles).1.At (time + cycles) := by
  have hpass : (Lcd.pass (pieces cycles) v).At (time + (pieces cycles).sum) :=
    h.pass fun n hn => le_of_mem_pieces hn
  rw [step_eq, if_pos h.enabled]
  rw [sum_pieces] at hpass
  exact hpass

/-- A write leaves the beam alone if it does not turn the display off. -/
theorem At.write (h : v.At time) {addr : UInt16} {value : UInt8}
    (hon : addr = 0xFF40 → value &&& 0x80 ≠ 0) : (v.write addr value).At time := by
  obtain ⟨henabled, hline, hclock, hplace⟩ := h
  unfold Lcd.write
  split
  · have hset : ({ v with control := value } : Lcd).enabled = true := by
      simpa [Lcd.enabled] using hon rfl
    rw [writeControl, hset, Bool.not_true, Bool.and_false, if_neg Bool.false_ne_true]
    exact ⟨hset, hline, hclock, hplace⟩
  all_goals exact ⟨henabled, hline, hclock, hplace⟩

end Handheld.Lcd
