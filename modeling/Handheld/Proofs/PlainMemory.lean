import Handheld.Proofs.Failure
import Handheld.Proofs.MemoryMap
import Mathlib.Tactic.SplitIfs

/-!
Plain memory. A byte that is written to an address of plain storage is read back there and at the
echo of the address, and at no other address is anything else read than before. Reads and the
passing of time change no byte of it.
-/
namespace Handheld

namespace Bus

variable {V A : Type} [VideoUnit V] [AudioUnit A] {b : Bus V A} {addr other : UInt16}

/-- The addresses at which there is never a device: the video memory, the work RAM with its echo
and what follows it up to the registers, and the gaps between and after these. -/
def IsSpare (addr : UInt16) : Prop :=
  (0x8000 ≤ addr ∧ addr ≤ 0x9FFF) ∨ (0xC000 ≤ addr ∧ addr ≤ 0xFEFF) ∨
    (0xFF01 ≤ addr ∧ addr ≤ 0xFF03) ∨ (0xFF08 ≤ addr ∧ addr ≤ 0xFF0E) ∨
    (0xFF27 ≤ addr ∧ addr ≤ 0xFF3F) ∨ (0xFF4C ≤ addr ∧ addr ≤ 0xFFFE)

/-- The addresses of plain storage. The windows of the cartridge are plain as far as no cartridge
answers there. -/
def IsPlain (b : Bus V A) (addr : UInt16) : Prop :=
  IsSpare addr ∨
    (0xA000 ≤ addr ∧ addr ≤ 0xBFFF ∧ ∀ c, b.slot = some c → c.hasRam = false) ∨
    (addr ≤ 0x7FFF ∧ b.slot = none)

/-- The other address at which a byte of the work RAM is seen. -/
def echo? (addr : UInt16) : Option UInt16 :=
  if 0xC000 ≤ addr ∧ addr ≤ 0xDDFF then some (addr + 0x2000)
  else if 0xE000 ≤ addr ∧ addr ≤ 0xFDFF then some (addr - 0x2000)
  else none

theorem region_of_isSpare (h : IsSpare addr) :
    Region.of addr = .plain ∨ Region.of addr = .workRam := by
  unfold IsSpare at h
  rw [Region.of_eq_iff, Region.of_eq_iff]
  simp only [UInt16.le_iff_toNat_le, UInt16.reduceToNat] at h
  simp only [Region.Spans]
  omega

omit [VideoUnit V] [AudioUnit A] in
theorem IsPlain.isCell (h : b.IsPlain addr) : b.isCell addr = true := by
  unfold Bus.isCell
  rcases h with hspare | ⟨hlow, hhigh, hram⟩ | ⟨hhigh, hslot⟩
  · rcases region_of_isSpare hspare with hregion | hregion
    · rw [hregion]
    · rw [hregion]
  · rw [UInt16.le_iff_toNat_le] at hlow hhigh
    have hregion : Region.of addr = .cartridgeRam :=
      Region.of_eq_iff.mpr ⟨hlow, Nat.lt_succ_of_le hhigh⟩
    rw [hregion]
    cases hslot : b.slot with
    | none => rfl
    | some c => simp [Slot.hasRam, hram c hslot]
  · rw [UInt16.le_iff_toNat_le] at hhigh
    have hregion : Region.of addr = .cartridgeRom :=
      Region.of_eq_iff.mpr (Nat.lt_succ_of_le hhigh)
    rw [hregion, hslot]
    rfl

theorem echo?_eq_some_iff : echo? addr = some other ↔
    (0xC000 ≤ addr.toNat ∧ addr.toNat ≤ 0xDDFF ∧ other.toNat = addr.toNat + 0x2000) ∨
      (0xE000 ≤ addr.toNat ∧ addr.toNat ≤ 0xFDFF ∧ other.toNat + 0x2000 = addr.toNat) := by
  have hlt := addr.toNat_lt
  have hlt' := other.toNat_lt
  have hdistance : (0x2000 : UInt16).toNat = 0x2000 := rfl
  unfold echo?
  simp only [UInt16.le_iff_toNat_le, UInt16.reduceToNat]
  split_ifs with hfirst hsecond
  · rw [Option.some.injEq, ← UInt16.toNat_inj, UInt16.toNat_add, hdistance]
    omega
  · rw [Option.some.injEq, ← UInt16.toNat_inj, UInt16.toNat_sub, hdistance]
    omega
  · simp only [false_iff]
    omega

/-- Two addresses have the same cell only in the work RAM, which is seen twice. -/
theorem cellAt_eq_cellAt_iff :
    cellAt other = cellAt addr ↔ other = addr ∨ echo? addr = some other := by
  have hlt := addr.toNat_lt
  have hlt' := other.toNat_lt
  rw [echo?_eq_some_iff, ← UInt16.toNat_inj, cellAt, cellAt]
  by_cases hwork : Region.of addr = .workRam
  · by_cases hwork' : Region.of other = .workRam
    · rw [if_pos hwork, if_pos hwork', Cell.work.injEq, Fin.ext_iff]
      rw [Region.of_eq_workRam_iff] at hwork hwork'
      simp only [workCell]
      omega
    · rw [if_pos hwork, if_neg hwork']
      rw [Region.of_eq_workRam_iff] at hwork hwork'
      simp only [reduceCtorEq, false_iff]
      omega
  · by_cases hwork' : Region.of other = .workRam
    · rw [if_neg hwork, if_pos hwork']
      rw [Region.of_eq_workRam_iff] at hwork hwork'
      simp only [reduceCtorEq, false_iff]
      omega
    · rw [if_neg hwork, if_neg hwork', Cell.plain.injEq, Fin.ext_iff]
      rw [Region.of_eq_workRam_iff] at hwork hwork'
      simp only [plainCell]
      omega

/-- Two buses differ at most in the bytes of their own memories. -/
structure SameBeside (b b' : Bus V A) : Prop where
  slot : b'.slot = b.slot
  requested : b'.requested = b.requested
  enabled : b'.enabled = b.enabled
  timer : b'.timer = b.timer
  joypad : b'.joypad = b.joypad
  video : b'.video = b.video
  audio : b'.audio = b.audio
  cycles : b'.cycles = b.cycles

omit [VideoUnit V] [AudioUnit A] in
theorem sameBeside_setCell (b : Bus V A) (c : Cell) (v : UInt8) : SameBeside b (b.setCell c v) := by
  cases c with
  | work i => exact ⟨rfl, rfl, rfl, rfl, rfl, rfl, rfl, rfl⟩
  | plain i => exact ⟨rfl, rfl, rfl, rfl, rfl, rfl, rfl, rfl⟩

omit [VideoUnit V] [AudioUnit A] in
theorem SameBeside.isCell_eq {b b' : Bus V A} (h : SameBeside b b') (addr : UInt16) :
    b'.isCell addr = b.isCell addr := by
  unfold Bus.isCell
  rw [h.slot, h.audio]

/-- What is read where a device stands comes from the devices alone. -/
theorem SameBeside.read_eq {b b' : Bus V A} (h : SameBeside b b')
    (hdevice : b.isCell addr = false) : b'.read addr = b.read addr := by
  unfold Bus.isCell at hdevice
  unfold read
  rw [h.slot, h.requested, h.enabled, h.timer, h.joypad, h.video, h.audio]
  cases hregion : Region.of addr with
  | cartridgeRom =>
    rw [hregion] at hdevice
    cases hslot : b.slot with
    | none => simp [hslot] at hdevice
    | some c => rfl
  | cartridgeRam =>
    rw [hregion] at hdevice
    cases hslot : b.slot with
    | none => simp [hslot, Slot.hasRam] at hdevice
    | some c =>
      have hram : c.hasRam = true := by simpa [hslot, Slot.hasRam] using hdevice
      simp only [hram, if_true]
  | sound =>
    rw [hregion] at hdevice
    cases haudio : b.audio with
    | none => simp [haudio] at hdevice
    | some a => rfl
  | workRam =>
    rw [hregion] at hdevice
    cases hdevice
  | plain =>
    rw [hregion] at hdevice
    cases hdevice
  | _ => rfl

/-- A byte that is put into a cell is read where that cell is, and nowhere else. -/
theorem read_setCell (b : Bus V A) (c : Cell) (v : UInt8) (addr : UInt16) :
    (b.setCell c v).read addr =
      if b.isCell addr = true ∧ cellAt addr = c then v else b.read addr := by
  have hsame := b.sameBeside_setCell c v
  by_cases hcell : b.isCell addr = true
  · rw [read_of_isCell (hsame.isCell_eq addr ▸ hcell), byteAt_setCell, read_of_isCell hcell]
    simp only [hcell, true_and, eq_comm]
  · rw [hsame.read_eq (Bool.eq_false_iff.mpr hcell), if_neg fun h => hcell h.1]

/-- A byte written to plain storage is read at the address and at its echo. -/
theorem read_write_of_isPlain (h : b.IsPlain addr) (v : UInt8) (other : UInt16) :
    (b.write addr v).read other =
      if other = addr ∨ echo? addr = some other then v else b.read other := by
  rw [write_of_isCell h.isCell, read_setCell]
  have hcell : other = addr ∨ echo? addr = some other → b.isCell other = true := by
    rintro (rfl | hecho)
    · exact h.isCell
    · have hwork : Region.of other = .workRam := by
        rw [echo?_eq_some_iff] at hecho
        rw [Region.of_eq_workRam_iff]
        omega
      unfold Bus.isCell
      rw [hwork]
  by_cases hsame : other = addr ∨ echo? addr = some other
  · rw [if_pos ⟨hcell hsame, cellAt_eq_cellAt_iff.mpr hsame⟩, if_pos hsame]
  · rw [if_neg fun hread => hsame (cellAt_eq_cellAt_iff.mp hread.2), if_neg hsame]

theorem isPlain_advance (b : Bus V A) (n : Nat) (addr : UInt16) :
    (b.advance n).IsPlain addr ↔ b.IsPlain addr := by
  have hslot : (b.advance n).slot = b.slot.map (·.step n) := rfl
  unfold IsPlain
  rw [hslot]
  cases b.slot with
  | none => exact Iff.rfl
  | some c => simp [c.hasRam_step n]

/-- No byte of plain storage changes while time passes. -/
theorem read_advance_of_isPlain (h : b.IsPlain addr) (n : Nat) :
    (b.advance n).read addr = b.read addr := by
  apply read_advance_untimed
  have hcell := h.isCell
  unfold Bus.isCell at hcell
  unfold isTimed
  cases hregion : Region.of addr with
  | sound =>
    rw [hregion] at hcell
    simpa using hcell
  | timer =>
    rw [hregion] at hcell
    cases hcell
  | interruptFlag =>
    rw [hregion] at hcell
    cases hcell
  | display =>
    rw [hregion] at hcell
    cases hcell
  | _ => rfl

/-- Plain memory behaves as memory. A byte written to an address of plain storage is read back at
the address and at its echo, what is read at every other address is what was read there before,
and neither a device nor the cycles change. Reading an address changes nothing but the time that a
charged access takes, and the passing of time changes no byte of plain storage. -/
theorem plain_memory (h : b.IsPlain addr) (v : UInt8) :
    (b.write addr v).read addr = v ∧
    (∀ partner, echo? addr = some partner → (b.write addr v).read partner = v) ∧
    (∀ other, other ≠ addr → echo? addr ≠ some other →
      (b.write addr v).read other = b.read other) ∧
    SameBeside b (b.write addr v) ∧ (b.write addr v).IsPlain addr ∧
    (∀ other, b.load other = (b.read other, b.advance accessCycles)) ∧
    ∀ n, (b.advance n).read addr = b.read addr ∧ (b.advance n).IsPlain addr := by
  have hsame : SameBeside b (b.write addr v) := by
    rw [write_of_isCell h.isCell]
    exact b.sameBeside_setCell _ v
  refine ⟨?here, ?echoed, ?elsewhere, hsame, ?plain, fun _ => rfl, fun n => ⟨?time, ?still⟩⟩
  case here => rw [read_write_of_isPlain h, if_pos (.inl rfl)]
  case echoed =>
    intro partner hpartner
    rw [read_write_of_isPlain h, if_pos (.inr hpartner)]
  case elsewhere =>
    intro other hne hecho
    rw [read_write_of_isPlain h, if_neg (not_or.mpr ⟨hne, hecho⟩)]
  case plain =>
    unfold IsPlain
    rw [hsame.slot]
    exact h
  case time => exact read_advance_of_isPlain h n
  case still => exact (b.isPlain_advance n addr).mpr h

/-- The bus of a console at power-on, with a vacant slot. -/
def vacant : Bus Lcd Sound := (Core.powerOn none).bus

theorem plain_memory_workRam :
    vacant.IsPlain 0xC123 ∧ (vacant.write 0xC123 0x5A).read 0xE123 = 0x5A ∧
      (vacant.write 0xC123 0x5A).read 0xC124 = 0 ∧ (vacant.advance 456).read 0xC123 = 0 := by
  have hplain : vacant.IsPlain 0xC123 := .inl (.inr (.inl (by decide)))
  obtain ⟨-, hecho, hother, -, -, -, htime⟩ := plain_memory hplain 0x5A
  have hzero : vacant.read 0xC124 = 0 := Memory.get_zero _
  have hzero' : vacant.read 0xC123 = 0 := Memory.get_zero _
  exact ⟨hplain, hecho 0xE123 rfl, (hother 0xC124 (by decide) (by decide)).trans hzero,
    (htime 456).1.trans hzero'⟩

end Bus

end Handheld
