import Handheld.Proofs.Manual.Instruction
import Mathlib.Data.List.Basic
import Mathlib.Logic.Function.Basic

/-!
The views of a register file, told on a reference machine. It holds eight bytes that are independent
of each other, the stack pointer and the program counter, and a pair is two of its bytes. Two views
depend on each other exactly if they have a byte in common.
-/
namespace Handheld

namespace Registers

/-- What can be asked of a register file. -/
inductive View
  | byte (x : ByteReg)
  | word (x : WordReg)
  | flag (f : Flag)
  deriving DecidableEq

/-- What can be written to a register file. -/
inductive Write
  | byte (x : ByteReg) (v : UInt8)
  | word (x : WordReg) (v : UInt16)
  | flag (f : Flag) (on : Bool)
  /-- All four flags at once. -/
  | flags (flags : Flags)
  deriving DecidableEq

/-- The view that is written through. -/
def Write.view : Write → View
  | .byte x _ => .byte x
  | .word x _ => .word x
  | .flag f _ => .flag f
  | .flags _ => .byte .f

end Registers

open Registers (View Write)

/-- The number of a flag's bit. -/
def Flag.bit : Flag → Fin 8
  | zero => ⟨7, by decide⟩
  | subtract => ⟨6, by decide⟩
  | halfCarry => ⟨5, by decide⟩
  | carry => ⟨4, by decide⟩

/-- The reference machine. -/
@[ext] structure Bank where
  cell : ByteReg → UInt8
  sp : UInt16
  pc : UInt16

namespace Bank

def cleared : Bank := ⟨fun _ => 0, 0, 0⟩

/-- The cells as the boot program leaves them. -/
def postBoot : Bank where
  cell
    | .a => 0x01
    | .f => 0xB0
    | .b => 0x00
    | .c => 0x13
    | .d => 0x00
    | .e => 0xD8
    | .h => 0x01
    | .l => 0x4D
  sp := 0xFFFE
  pc := 0x0100

/-- A byte with a lower half of zero. -/
def upperHalf (v : UInt8) : UInt8 := UInt8.ofNat (16 * (v.toNat / 16))

/-- Stores a byte; the cell of the flags has no lower half. -/
def put (m : Bank) (x : ByteReg) (v : UInt8) : Bank :=
  { m with cell := Function.update m.cell x (if x = .f then upperHalf v else v) }

def pair (m : Bank) (high low : ByteReg) : Nat :=
  256 * (m.cell high).toNat + (m.cell low).toNat

def putPair (m : Bank) (high low : ByteReg) (v : UInt16) : Bank :=
  (m.put high (UInt8.ofNat (v.toNat / 256))).put low (UInt8.ofNat (v.toNat % 256))

def flag (m : Bank) (f : Flag) : Bool := (m.cell .f).toNat.testBit f.bit

def answer (m : Bank) : View → Nat
  | .byte x => (m.cell x).toNat
  | .word .af => m.pair .a .f
  | .word .bc => m.pair .b .c
  | .word .de => m.pair .d .e
  | .word .hl => m.pair .h .l
  | .word .sp => m.sp.toNat
  | .word .pc => m.pc.toNat
  | .flag f => (m.flag f).toNat

def write (m : Bank) : Write → Bank
  | .byte x v => m.put x v
  | .word .af v => m.putPair .a .f v
  | .word .bc v => m.putPair .b .c v
  | .word .de v => m.putPair .d .e v
  | .word .hl v => m.putPair .h .l v
  | .word .sp v => { m with sp := v }
  | .word .pc v => { m with pc := v }
  | .flag f on =>
    m.put .f (if on then Manual.withBit f.bit (m.cell .f).toNat
      else Manual.withoutBit f.bit (m.cell .f).toNat)
  | .flags flags => m.put .f (UInt8.ofNat (Manual.flagNumber flags))

def writeAll (m : Bank) (ws : List Write) : Bank := ws.foldl write m

end Bank

/-! Which views a write changes. -/

/-- What the views are made of. -/
inductive Part
  | byte (x : ByteReg)
  | sp
  | pc
  deriving DecidableEq

/-- The parts of a view. A flag is a bit of its part. -/
def Registers.View.parts : View → List Part
  | .byte x => [.byte x]
  | .word .af => [.byte .a, .byte .f]
  | .word .bc => [.byte .b, .byte .c]
  | .word .de => [.byte .d, .byte .e]
  | .word .hl => [.byte .h, .byte .l]
  | .word .sp => [.sp]
  | .word .pc => [.pc]
  | .flag _ => [.byte .f]

/-- Views that have a part in common. Two flags have no bit of it in common unless they are the
same. -/
def Registers.View.Meets (u v : View) : Prop :=
  (∃ p ∈ u.parts, p ∈ v.parts) ∧ ∀ f g, u = .flag f → v = .flag g → f = g

/-- A view of the flag byte meets one of the flags. -/
theorem Registers.View.exists_meets_flag {u : View} (h : .byte .f ∈ u.parts) :
    ∃ g, u.Meets (.flag g) := by
  have hcommon (g : Flag) : ∃ p ∈ u.parts, p ∈ (View.flag g).parts :=
    ⟨_, h, List.mem_singleton_self _⟩
  cases u with
  | flag f =>
    refine ⟨f, hcommon f, ?_⟩
    rintro _ _ ⟨⟩ ⟨⟩
    rfl
  | _ =>
    refine ⟨.zero, hcommon _, ?_⟩
    rintro _ _ ⟨⟩

namespace Bank

def part (m : Bank) : Part → Nat
  | .byte x => (m.cell x).toNat
  | .sp => m.sp.toNat
  | .pc => m.pc.toNat

theorem part_put_of_ne (m : Bank) {x : ByteReg} (v : UInt8) {p : Part} (h : p ≠ .byte x) :
    (m.put x v).part p = m.part p := by
  cases p with
  | byte y =>
    have hne : y ≠ x := fun heq => h (congrArg Part.byte heq)
    exact congrArg UInt8.toNat (Function.update_of_ne hne _ _)
  | sp => rfl
  | pc => rfl

/-- A write changes no part but those of its view. -/
theorem part_write_of_notMem (m : Bank) {w : Write} {p : Part} (h : p ∉ w.view.parts) :
    (m.write w).part p = m.part p := by
  have hpair (high low : ByteReg) (v : UInt16) (hp : p ∉ [Part.byte high, Part.byte low]) :
      (m.putPair high low v).part p = m.part p := by
    obtain ⟨hhigh, hlow⟩ := not_or.mp (mt List.mem_pair.mpr hp)
    rw [putPair, part_put_of_ne _ _ hlow, part_put_of_ne _ _ hhigh]
  cases w with
  | byte x v => exact m.part_put_of_ne v (mt List.mem_singleton.mpr h)
  | word x v =>
    cases x with
    | af => exact hpair _ _ v h
    | bc => exact hpair _ _ v h
    | de => exact hpair _ _ v h
    | hl => exact hpair _ _ v h
    | sp => cases p <;> first | rfl | exact absurd (List.mem_singleton_self _) h
    | pc => cases p <;> first | rfl | exact absurd (List.mem_singleton_self _) h
  | flag f on => exact m.part_put_of_ne _ (mt List.mem_singleton.mpr h)
  | flags flags => exact m.part_put_of_ne _ (mt List.mem_singleton.mpr h)

/-- The flags can be read off their byte. -/
theorem flag_eq_of_part_eq {m m' : Bank} (h : m'.part (.byte .f) = m.part (.byte .f)) (f : Flag) :
    m'.flag f = m.flag f :=
  congrArg (fun n => n.testBit f.bit) h

/-- A view answers by its parts. -/
theorem answer_congr {m m' : Bank} {v : View} (h : ∀ p ∈ v.parts, m'.part p = m.part p) :
    m'.answer v = m.answer v := by
  have hpair (high low : ByteReg) (hp : ∀ p ∈ [Part.byte high, Part.byte low],
      m'.part p = m.part p) : m'.pair high low = m.pair high low := by
    have hhigh := hp (.byte high) (by simp)
    have hlow := hp (.byte low) (by simp)
    exact congrArg₂ (fun a b => 256 * a + b) hhigh hlow
  cases v with
  | byte x => exact h _ (List.mem_singleton_self _)
  | word x =>
    cases x with
    | af => exact hpair _ _ h
    | bc => exact hpair _ _ h
    | de => exact hpair _ _ h
    | hl => exact hpair _ _ h
    | sp => exact h _ (List.mem_singleton_self _)
    | pc => exact h _ (List.mem_singleton_self _)
  | flag f =>
    exact congrArg Bool.toNat (flag_eq_of_part_eq (h _ (List.mem_singleton_self _)) f)

/-- A view that is no flag shows every part. -/
theorem part_eq_of_answer_eq {m m' : Bank} {v : View} (hv : ∀ f, v ≠ .flag f)
    (h : m'.answer v = m.answer v) : ∀ p ∈ v.parts, m'.part p = m.part p := by
  have hpair (high low : ByteReg) (heq : m'.pair high low = m.pair high low) :
      ∀ p ∈ [Part.byte high, Part.byte low], m'.part p = m.part p := by
    have hlow := (m.cell low).toNat_lt
    have hlow' := (m'.cell low).toNat_lt
    simp only [pair] at heq
    refine List.forall_mem_cons.mpr ⟨?_, List.forall_mem_singleton.mpr ?_⟩
    · change (m'.cell high).toNat = (m.cell high).toNat
      omega
    · change (m'.cell low).toNat = (m.cell low).toNat
      omega
  cases v with
  | byte x => exact List.forall_mem_singleton.mpr h
  | word x =>
    cases x with
    | af => exact hpair _ _ h
    | bc => exact hpair _ _ h
    | de => exact hpair _ _ h
    | hl => exact hpair _ _ h
    | sp => exact List.forall_mem_singleton.mpr h
    | pc => exact List.forall_mem_singleton.mpr h
  | flag f => exact absurd rfl (hv f)

theorem testBit_upperHalf (v : UInt8) (f : Flag) :
    (upperHalf v).toNat.testBit f.bit = v.toNat.testBit f.bit := by
  revert v
  cases f <;> exact forall_byte (by decide +kernel)

theorem cell_put_self (m : Bank) (x : ByteReg) (v : UInt8) :
    (m.put x v).cell x = if x = .f then upperHalf v else v :=
  Function.update_self _ _ _

theorem flag_put (m : Bank) (v : UInt8) (f : Flag) :
    (m.put .f v).flag f = v.toNat.testBit f.bit := by
  rw [flag, cell_put_self, if_pos rfl, testBit_upperHalf]

theorem testBit_changed (v : UInt8) (f g : Flag) (on : Bool) :
    (if on then Manual.withBit f.bit v.toNat else Manual.withoutBit f.bit v.toNat).toNat.testBit
      g.bit = if f = g then on else v.toNat.testBit g.bit := by
  revert v
  cases f <;> cases g <;> cases on <;> exact forall_byte (by decide +kernel)

theorem flag_write_flag (m : Bank) (f g : Flag) (on : Bool) :
    (m.write (.flag f on)).flag g = if f = g then on else m.flag g := by
  rw [write, flag_put, testBit_changed]
  rfl

/-- The write through a view that turns all its bits round. -/
def flip (m : Bank) : View → Write
  | .byte x => .byte x (UInt8.ofNat (255 - m.answer (.byte x)))
  | .word x => .word x (UInt16.ofNat (65535 - m.answer (.word x)))
  | .flag f => .flag f (!m.flag f)

theorem view_flip (m : Bank) (u : View) : (m.flip u).view = u := by
  cases u <;> rfl

/-- A byte that is turned round has every bit the other way. -/
theorem testBit_turned (v : UInt8) (f : Flag) :
    (UInt8.ofNat (255 - v.toNat)).toNat.testBit f.bit = !v.toNat.testBit f.bit := by
  revert v
  cases f <;> exact forall_byte (by decide +kernel)

/-- The two bytes of a pair that is turned round. -/
theorem turned_pair (m : Bank) (high low : ByteReg) :
    (UInt16.ofNat (65535 - m.pair high low)).toNat / 256 = 255 - (m.cell high).toNat ∧
      (UInt16.ofNat (65535 - m.pair high low)).toNat % 256 = 255 - (m.cell low).toNat := by
  have hhigh := (m.cell high).toNat_lt
  have hlow := (m.cell low).toNat_lt
  rw [UInt16.toNat_ofNat', pair]
  omega

theorem toNat_turned_ne (v : UInt8) : (UInt8.ofNat (255 - v.toNat)).toNat ≠ v.toNat := by
  have hv := v.toNat_lt
  rw [UInt8.toNat_ofNat']
  omega

theorem toNat_turnedWord_ne (v : UInt16) : (UInt16.ofNat (65535 - v.toNat)).toNat ≠ v.toNat := by
  have hv := v.toNat_lt
  rw [UInt16.toNat_ofNat']
  omega

/-- Turning a view round turns every flag round that it holds. -/
theorem flag_flip (m : Bank) {u : View} {g : Flag} (h : u.Meets (.flag g)) :
    (m.write (m.flip u)).flag g = !m.flag g := by
  obtain ⟨⟨p, hu, hp⟩, hsame⟩ := h
  obtain rfl := List.mem_singleton.mp hp
  cases u with
  | byte x =>
    obtain rfl : ByteReg.f = x := Part.byte.inj (List.mem_singleton.mp hu)
    exact (m.flag_put _ g).trans (testBit_turned _ g)
  | word x =>
    cases x <;> simp [View.parts] at hu
    refine (flag_put _ _ g).trans ?_
    change (UInt8.ofNat ((UInt16.ofNat (65535 - m.pair .a .f)).toNat % 256)).toNat.testBit g.bit = _
    rw [(m.turned_pair .a .f).2]
    exact testBit_turned _ g
  | flag f =>
    obtain rfl := hsame f g rfl rfl
    rw [flip, flag_write_flag, if_pos rfl]

/-- Turning a pair round changes its bytes. The flag byte is none of those that this is about. -/
theorem part_putPair_turned_ne (m : Bank) {high low x : ByteReg} (hne : high ≠ low)
    (hx : x = high ∨ x = low) (hf : x ≠ .f) :
    (m.putPair high low (UInt16.ofNat (65535 - m.pair high low))).part (.byte x) ≠
      m.part (.byte x) := by
  obtain ⟨hdiv, hmod⟩ := m.turned_pair high low
  rcases hx with rfl | rfl
  · rw [putPair, part_put_of_ne _ _ (fun heq => hne (Part.byte.inj heq)), hdiv, part,
      cell_put_self, if_neg hf]
    exact toNat_turned_ne _
  · rw [putPair, hmod, part, cell_put_self, if_neg hf]
    exact toNat_turned_ne _

/-- Turning a view round changes all its parts. -/
theorem part_flip_ne (m : Bank) {u : View} {p : Part} (h : p ∈ u.parts) :
    (m.write (m.flip u)).part p ≠ m.part p := by
  by_cases hp : p = .byte .f
  · -- The lower half of the flag byte stays zero, so the flags have to tell.
    subst hp
    intro heq
    obtain ⟨g, hmeets⟩ := View.exists_meets_flag h
    have hround := m.flag_flip hmeets
    rw [flag_eq_of_part_eq heq] at hround
    exact (Bool.eq_not_self _).mp hround
  · have hpair {high low : ByteReg} (hne : high ≠ low)
        (hmem : p ∈ [Part.byte high, Part.byte low]) :
        (m.putPair high low (UInt16.ofNat (65535 - m.pair high low))).part p ≠ m.part p := by
      rcases List.mem_pair.mp hmem with rfl | rfl
      · exact m.part_putPair_turned_ne hne (.inl rfl) fun heq => hp (congrArg Part.byte heq)
      · exact m.part_putPair_turned_ne hne (.inr rfl) fun heq => hp (congrArg Part.byte heq)
    cases u with
    | byte x =>
      obtain rfl := List.mem_singleton.mp h
      rw [flip, write, part, cell_put_self, if_neg fun heq => hp (congrArg Part.byte heq)]
      exact toNat_turned_ne _
    | word x =>
      cases x with
      | af => exact hpair (by decide) h
      | bc => exact hpair (by decide) h
      | de => exact hpair (by decide) h
      | hl => exact hpair (by decide) h
      | sp =>
        obtain rfl := List.mem_singleton.mp h
        exact toNat_turnedWord_ne _
      | pc =>
        obtain rfl := List.mem_singleton.mp h
        exact toNat_turnedWord_ne _
    | flag f => exact absurd (List.mem_singleton.mp h) hp

/-- A write changes no view but those that its own one meets. -/
theorem meets_of_change (m : Bank) {w : Write} {v : View}
    (h : (m.write w).answer v ≠ m.answer v) : w.view.Meets v := by
  refine ⟨?_, ?_⟩
  · by_contra hnone
    apply h
    exact answer_congr fun p hp => part_write_of_notMem _ fun hw => hnone ⟨p, hw, hp⟩
  · rintro f g hf rfl
    by_contra hne
    cases w with
    | flag f' on =>
      obtain rfl := View.flag.inj hf
      apply h
      rw [answer, flag_write_flag, if_neg hne]
      rfl
    | _ => cases hf

/-- Turning a view round changes all views that it meets. -/
theorem change_of_meets (m : Bank) {u v : View} (h : u.Meets v) :
    (m.write (m.flip u)).answer v ≠ m.answer v := by
  obtain ⟨p, hu, hv⟩ := h.1
  by_cases hflag : ∃ g, v = .flag g
  · obtain ⟨g, rfl⟩ := hflag
    change ((m.write (m.flip u)).flag g).toNat ≠ (m.flag g).toNat
    rw [flag_flip m h]
    cases m.flag g <;> decide
  · intro heq
    exact m.part_flip_ne hu (part_eq_of_answer_eq (not_exists.mp hflag) heq p hv)

/-- Each view has a write that changes exactly the views that it meets. -/
theorem exists_write_change_iff (m : Bank) (u : View) :
    ∃ w : Write, w.view = u ∧ ∀ v, (m.write w).answer v ≠ m.answer v ↔ u.Meets v := by
  refine ⟨m.flip u, m.view_flip u, fun v => ⟨fun hchange => ?_, m.change_of_meets⟩⟩
  have hmeets := m.meets_of_change hchange
  rwa [view_flip] at hmeets

end Bank

end Handheld
