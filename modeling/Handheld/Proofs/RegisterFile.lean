import Handheld.Proofs.RegisterViews

/-!
The register file as bytes in an array. A pair is the byte at an index and the next one, a flag is a
bit of the byte at index 1, and setting flags writes their bits without masking anything. The lower
half of that byte stays clear through all writes, so every view answers as it does on the reference
machine, and the register file that the processor runs on holds the same.
-/
namespace Handheld

open Registers (View Write)

namespace ByteReg

/-- The registers in pair order. -/
def number : ByteReg → Nat
  | a => 0
  | f => 1
  | b => 2
  | c => 3
  | d => 4
  | e => 5
  | h => 6
  | l => 7

theorem number_lt (x : ByteReg) : x.number < 8 := by
  cases x <;> decide

/-- Where a register stands in the array. -/
def index (x : ByteReg) : Fin 8 := ⟨x.number, x.number_lt⟩

theorem index_inj {x y : ByteReg} : x.index.val = y.index.val ↔ x = y := by
  cases x <;> cases y <;> decide

end ByteReg

structure RegisterFile where
  /-- A, F, B, C, D, E, H and L. -/
  bytes : Vector UInt8 8
  sp : UInt16
  pc : UInt16
  deriving DecidableEq

namespace RegisterFile

def cleared : RegisterFile := ⟨Vector.replicate 8 0, 0, 0⟩

def store (f : RegisterFile) (i : Fin 8) (v : UInt8) : RegisterFile :=
  { f with bytes := f.bytes.set i v }

def get8 (f : RegisterFile) (x : ByteReg) : UInt8 := f.bytes[x.index]

def set8 (f : RegisterFile) (x : ByteReg) (v : UInt8) : RegisterFile :=
  f.store x.index (if x = .f then v &&& 0xF0 else v)

def pair (f : RegisterFile) (high : ByteReg) (h : high.index.val + 1 < 8) : UInt16 :=
  Word.join f.bytes[high.index] f.bytes[high.index.val + 1]

def setPair (f : RegisterFile) (high : ByteReg) (h : high.index.val + 1 < 8) (v : UInt16) :
    RegisterFile :=
  (f.store high.index (Word.high v)).store ⟨high.index.val + 1, h⟩ (Word.low v)

def get16 (f : RegisterFile) : WordReg → UInt16
  | .af => f.pair .a (by decide)
  | .bc => f.pair .b (by decide)
  | .de => f.pair .d (by decide)
  | .hl => f.pair .h (by decide)
  | .sp => f.sp
  | .pc => f.pc

/-- Only AF is masked. -/
def set16 (f : RegisterFile) (x : WordReg) (v : UInt16) : RegisterFile :=
  match x with
  | .af => f.setPair .a (by decide) (v &&& 0xFFF0)
  | .bc => f.setPair .b (by decide) v
  | .de => f.setPair .d (by decide) v
  | .hl => f.setPair .h (by decide) v
  | .sp => { f with sp := v }
  | .pc => { f with pc := v }

def flag (f : RegisterFile) (g : Flag) : Bool := f.bytes[ByteReg.f.index] &&& g.mask != 0

def setFlag (f : RegisterFile) (g : Flag) (on : Bool) : RegisterFile :=
  f.store ByteReg.f.index
    (if on then f.bytes[ByteReg.f.index] ||| g.mask else f.bytes[ByteReg.f.index] &&& ~~~g.mask)

/-- The byte with the given flags, one bit after the other. -/
def flagByte (z n h c : Bool) : UInt8 :=
  let f : UInt8 := 0
  let f := if z then f ||| Flag.zero.mask else f
  let f := if n then f ||| Flag.subtract.mask else f
  let f := if h then f ||| Flag.halfCarry.mask else f
  if c then f ||| Flag.carry.mask else f

def setFlags (f : RegisterFile) (z n h c : Bool) : RegisterFile :=
  f.store ByteReg.f.index (flagByte z n h c)

/-- The contents after the boot program has handed over. -/
def postBoot : RegisterFile :=
  let f := (((cleared.set16 .af 0x01B0).set16 .bc 0x0013).set16 .de 0x00D8).set16 .hl 0x014D
  { f with sp := 0xFFFE, pc := 0x0100 }

/-- The answer of a view as a number. -/
def answer (f : RegisterFile) : View → Nat
  | .byte x => (f.get8 x).toNat
  | .word x => (f.get16 x).toNat
  | .flag g => (f.flag g).toNat

def write (f : RegisterFile) : Write → RegisterFile
  | .byte x v => f.set8 x v
  | .word x v => f.set16 x v
  | .flag g on => f.setFlag g on
  | .flags flags => f.setFlags flags.zero flags.subtract flags.halfCarry flags.carry

/-- The register file after some writes in order. -/
def writeAll (f : RegisterFile) (ws : List Write) : RegisterFile := ws.foldl write f

theorem get8_store (f : RegisterFile) (x y : ByteReg) (v : UInt8) :
    (f.store x.index v).get8 y = if x = y then v else f.get8 y := by
  change (f.bytes.set x.index v)[y.index.val] = _
  rw [Vector.getElem_set]
  exact if_congr ByteReg.index_inj rfl rfl

/-! The lower half of the flag byte. -/

/-- The flag byte has no lower half. -/
def Masked (f : RegisterFile) : Prop := f.get8 .f &&& 0x0F = 0

theorem and_mask (v : UInt8) : v &&& 0xF0 = Bank.upperHalf v := by
  revert v
  exact forall_byte (by decide +kernel)

theorem upperHalf_and (v : UInt8) : Bank.upperHalf v &&& 0x0F = 0 := by
  revert v
  exact forall_byte (by decide +kernel)

/-- The mask of AF leaves the upper byte as it is. -/
theorem high_and_mask (v : UInt16) : Word.high (v &&& 0xFFF0) = Word.high v := by
  apply UInt8.toNat_inj.mp
  have hv := v.toNat_lt
  have hhigh : v.toNat / 2 ^ 8 &&& 255 = v.toNat / 2 ^ 8 % 2 ^ 8 :=
    Nat.and_two_pow_sub_one_eq_mod _ 8
  rw [Word.toNat_high, UInt16.toNat_and, Word.toNat_high]
  refine (Nat.and_div_two_pow (n := 8)).trans (hhigh.trans ?_)
  omega

theorem low_and_mask (v : UInt16) : Word.low (v &&& 0xFFF0) = Word.low v &&& 0xF0 := by
  apply UInt8.toNat_inj.mp
  rw [Word.toNat_low, UInt16.toNat_and, UInt8.toNat_and, Word.toNat_low]
  exact Nat.and_mod_two_pow (n := 8)

/-- Writing one flag leaves a lower half clear that was clear. -/
theorem setBit_and {v : UInt8} (h : v &&& 0x0F = 0) (g : Flag) (on : Bool) :
    (if on then v ||| g.mask else v &&& ~~~g.mask) &&& 0x0F = 0 := by
  revert v
  cases g <;> cases on <;> exact @forall_byte _ (by decide +kernel)

theorem flagByte_and (z n h c : Bool) : flagByte z n h c &&& 0x0F = 0 := by
  revert z n h c
  decide

theorem masked_store_flags (f : RegisterFile) {v : UInt8} (h : v &&& 0x0F = 0) :
    (f.store ByteReg.f.index v).Masked := by
  rw [Masked, get8_store, if_pos rfl]
  exact h

theorem Masked.store {f : RegisterFile} (h : f.Masked) {x : ByteReg} (hx : x ≠ .f) (v : UInt8) :
    (f.store x.index v).Masked := by
  rwa [Masked, get8_store, if_neg hx]

/-- No write brings a lower half into the flag byte. -/
theorem Masked.write {f : RegisterFile} (h : f.Masked) (w : Write) : (f.write w).Masked := by
  cases w with
  | byte x v =>
    by_cases hx : x = .f
    · subst hx
      refine masked_store_flags f ?_
      rw [if_pos rfl, and_mask]
      exact upperHalf_and v
    · exact h.store hx _
  | word x v =>
    cases x with
    | af =>
      refine masked_store_flags (f.store ByteReg.a.index _) ?_
      rw [low_and_mask, and_mask]
      exact upperHalf_and _
    | bc => exact (h.store (x := .b) (by decide) _).store (x := .c) (by decide) _
    | de => exact (h.store (x := .d) (by decide) _).store (x := .e) (by decide) _
    | hl => exact (h.store (x := .h) (by decide) _).store (x := .l) (by decide) _
    | sp => exact h
    | pc => exact h
  | flag g on => exact masked_store_flags f (setBit_and h g on)
  | flags flags => exact masked_store_flags f (flagByte_and _ _ _ _)

theorem Masked.writeAll {f : RegisterFile} (h : f.Masked) (ws : List Write) :
    (f.writeAll ws).Masked := by
  induction ws generalizing f with
  | nil => exact h
  | cons w ws ih => exact ih (h.write w)

theorem masked_cleared : cleared.Masked := rfl

theorem masked_postBoot : postBoot.Masked := rfl

/-! The register file against the reference machine. -/

/-- The reference machine with the contents of a register file. -/
def bank (f : RegisterFile) : Bank := ⟨f.get8, f.sp, f.pc⟩

/-- A byte that is stored as the reference machine masks it. -/
theorem bank_store (f : RegisterFile) {x : ByteReg} {v w : UInt8}
    (h : v = if x = .f then Bank.upperHalf w else w) :
    (f.store x.index v).bank = f.bank.put x w := by
  refine Bank.ext (funext fun y => ?_) rfl rfl
  change (f.store x.index v).get8 y = Function.update f.get8 x _ y
  rw [get8_store, Function.update_apply, ← h]
  exact if_congr eq_comm rfl rfl

theorem low_eq (v : UInt16) : Word.low v = UInt8.ofNat (v.toNat % 256) := by
  apply UInt8.toNat_inj.mp
  rw [Word.toNat_low, UInt8.toNat_ofNat', Nat.mod_mod]

/-- The byte after the upper one of a pair is the lower one. -/
theorem bank_setPair (f : RegisterFile) {high low : ByteReg} (hlt : high.index.val + 1 < 8)
    (hnext : low.index = ⟨high.index.val + 1, hlt⟩) (hhigh : high ≠ .f) (hlow : low ≠ .f)
    (v : UInt16) : (f.setPair high hlt v).bank = f.bank.putPair high low v := by
  rw [setPair, ← hnext, Bank.putPair, ← low_eq]
  rw [bank_store _ (if_neg hlow).symm, bank_store _ (if_neg hhigh).symm]
  rfl

/-- The mask of AF clears what the reference machine does not store. -/
theorem bank_setAF (f : RegisterFile) (v : UInt16) :
    (f.set16 .af v).bank = f.bank.putPair .a .f v := by
  have hlow : Word.low (v &&& 0xFFF0) = Bank.upperHalf (Word.low v) := by
    rw [low_and_mask, and_mask]
  rw [Bank.putPair, ← low_eq]
  refine (bank_store (x := .f) _ hlow).trans ?_
  rw [bank_store _ (if_neg (by decide)).symm, high_and_mask]
  rfl

/-- Setting or clearing a bit of a masked byte needs no mask. -/
theorem setBit_eq {v : UInt8} (h : v &&& 0x0F = 0) (g : Flag) (on : Bool) :
    (if on then v ||| g.mask else v &&& ~~~g.mask) = Bank.upperHalf
      (if on then Manual.withBit g.bit v.toNat else Manual.withoutBit g.bit v.toNat) := by
  revert v
  cases g <;> cases on <;> exact @forall_byte _ (by decide +kernel)

theorem flagByte_eq (flags : Flags) :
    flagByte flags.zero flags.subtract flags.halfCarry flags.carry =
      Bank.upperHalf (UInt8.ofNat (Manual.flagNumber flags)) := by
  obtain ⟨z, n, h, c⟩ := flags
  revert z n h c
  decide

/-- A write to a masked register file does what it does to the reference machine. -/
theorem bank_write {f : RegisterFile} (h : f.Masked) (w : Write) :
    (f.write w).bank = f.bank.write w := by
  cases w with
  | byte x v => exact f.bank_store (if_congr Iff.rfl (and_mask v) rfl)
  | word x v =>
    cases x with
    | af => exact f.bank_setAF v
    | bc => exact f.bank_setPair _ rfl (by decide) (by decide) v
    | de => exact f.bank_setPair _ rfl (by decide) (by decide) v
    | hl => exact f.bank_setPair _ rfl (by decide) (by decide) v
    | sp => rfl
    | pc => rfl
  | flag g on => exact f.bank_store (x := .f) (setBit_eq h g on)
  | flags flags => exact f.bank_store (x := .f) (flagByte_eq flags)

theorem bank_writeAll {f : RegisterFile} (h : f.Masked) (ws : List Write) :
    (f.writeAll ws).bank = f.bank.writeAll ws := by
  induction ws generalizing f with
  | nil => rfl
  | cons w ws ih =>
    change ((f.write w).writeAll ws).bank = (f.bank.write w).writeAll ws
    rw [ih (h.write w), bank_write h]

theorem flag_eq (f : RegisterFile) (g : Flag) : f.flag g = f.bank.flag g := by
  have hbit : ∀ v : UInt8, (v &&& g.mask != 0) = v.toNat.testBit g.bit := by
    cases g <;> exact forall_byte (by decide +kernel)
  exact hbit (f.get8 .f)

theorem answer_bank (f : RegisterFile) (v : View) : f.bank.answer v = f.answer v := by
  cases v with
  | byte x => rfl
  | word x =>
    cases x with
    | sp => rfl
    | pc => rfl
    | _ => exact (Word.toNat_join _ _).symm
  | flag g => exact congrArg Bool.toNat (f.flag_eq g).symm

theorem bank_cleared : cleared.bank = .cleared := by
  refine Bank.ext (funext fun y => ?_) rfl rfl
  cases y <;> rfl

theorem bank_postBoot : postBoot.bank = .postBoot := by
  refine Bank.ext (funext fun y => ?_) rfl rfl
  cases y <;> decide

/-- All views of a register file answer as they do on a reference machine, and the flag byte has
no lower half. A write changes no view but those that its own one meets, and each view has a write
that changes all of these. -/
structure Consistent (f : RegisterFile) (m : Bank) : Prop where
  answer_eq : ∀ v, f.answer v = m.answer v
  lowerHalf_eq_zero : f.answer (.byte .f) % 16 = 0
  meets_of_change : ∀ (w : Write) v, (f.write w).answer v ≠ f.answer v → w.view.Meets v
  exists_write : ∀ u, ∃ w : Write, w.view = u ∧
    ∀ v, (f.write w).answer v ≠ f.answer v ↔ u.Meets v

theorem answer_write {f : RegisterFile} (h : f.Masked) (w : Write) (v : View) :
    (f.write w).answer v = (f.bank.write w).answer v := by
  rw [← answer_bank, bank_write h]

theorem Masked.consistent {f : RegisterFile} (h : f.Masked) : f.Consistent f.bank where
  answer_eq v := (f.answer_bank v).symm
  lowerHalf_eq_zero := by
    have hmod : (f.get8 .f).toNat &&& 15 = (f.get8 .f).toNat % 2 ^ 4 :=
      Nat.and_two_pow_sub_one_eq_mod _ 4
    have hzero := congrArg UInt8.toNat h
    rw [UInt8.toNat_and] at hzero
    exact hmod.symm.trans hzero
  meets_of_change w v hchange := by
    rw [answer_write h, ← answer_bank f] at hchange
    exact f.bank.meets_of_change hchange
  exists_write u := by
    obtain ⟨w, hview, hw⟩ := f.bank.exists_write_change_iff u
    refine ⟨w, hview, fun v => ?_⟩
    rw [answer_write h, ← answer_bank f]
    exact hw v

theorem Masked.consistent_writeAll {f : RegisterFile} (h : f.Masked) (ws : List Write) :
    (f.writeAll ws).Consistent (f.bank.writeAll ws) := by
  rw [← bank_writeAll h]
  exact (h.writeAll ws).consistent

example : (cleared.writeAll [.word .af 0xABCD, .flag .halfCarry true]).get16 .af = 0xABE0 := by
  decide

end RegisterFile

/-! The register file that the processor runs on. -/

namespace Flags

theorem upperHalf_ofByte (v : UInt8) : (ofByte v).toByte = Bank.upperHalf v := by
  revert v
  exact forall_byte (by decide +kernel)

theorem toByte_set (fs : Flags) (f : Flag) (on : Bool) :
    (fs.set f on).toByte = Bank.upperHalf
      (if on then Manual.withBit f.bit fs.toByte.toNat
        else Manual.withoutBit f.bit fs.toByte.toNat) := by
  obtain ⟨z, n, h, c⟩ := fs
  revert z n h c on
  cases f <;> decide +kernel

theorem toByte_eq (fs : Flags) :
    fs.toByte = Bank.upperHalf (UInt8.ofNat (Manual.flagNumber fs)) := by
  obtain ⟨z, n, h, c⟩ := fs
  revert z n h c
  decide +kernel

theorem get_eq_testBit (fs : Flags) (f : Flag) : fs.get f = fs.toByte.toNat.testBit f.bit := by
  obtain ⟨z, n, h, c⟩ := fs
  revert z n h c
  cases f <;> decide +kernel

end Flags

namespace Registers

def write (r : Registers) : Write → Registers
  | .byte x v => r.setByte x v
  | .word x v => r.setWord x v
  | .flag f on => r.setFlag f on
  | .flags flags => { r with flags := flags }

/-- The registers after some writes in order. -/
def writeAll (r : Registers) (ws : List Write) : Registers := ws.foldl write r

theorem writeAll_append (r : Registers) (first next : List Write) :
    r.writeAll (first ++ next) = (r.writeAll first).writeAll next := List.foldl_append

def bank (r : Registers) : Bank := ⟨r.byte, r.sp, r.pc⟩

theorem bank_withFlags (r : Registers) {flags : Flags} {v : UInt8}
    (h : flags.toByte = Bank.upperHalf v) : bank { r with flags := flags } = r.bank.put .f v := by
  refine Bank.ext (funext fun y => ?_) rfl rfl
  cases y with
  | f => exact h
  | _ => rfl

theorem bank_setByte (r : Registers) (x : ByteReg) (v : UInt8) :
    (r.setByte x v).bank = r.bank.put x v := by
  cases x with
  | f => exact r.bank_withFlags (Flags.upperHalf_ofByte v)
  | _ =>
    refine Bank.ext (funext fun y => ?_) rfl rfl
    cases y <;> rfl

/-- A pair is written as its two bytes. -/
theorem bank_setPair (r : Registers) (high low : ByteReg) (v : UInt16) :
    ((r.setByte high (Word.high v)).setByte low (Word.low v)).bank = r.bank.putPair high low v := by
  rw [bank_setByte, bank_setByte, RegisterFile.low_eq]
  rfl

/-- A write does to the registers what it does to the reference machine. -/
theorem bank_write (r : Registers) (w : Write) : (r.write w).bank = r.bank.write w := by
  cases w with
  | byte x v => exact r.bank_setByte x v
  | word x v =>
    cases x with
    | af => exact r.bank_setPair .a .f v
    | bc => exact r.bank_setPair .b .c v
    | de => exact r.bank_setPair .d .e v
    | hl => exact r.bank_setPair .h .l v
    | sp => rfl
    | pc => rfl
  | flag f on => exact r.bank_withFlags (r.flags.toByte_set f on)
  | flags flags => exact r.bank_withFlags flags.toByte_eq

theorem bank_postBoot : postBoot.bank = .postBoot := by
  refine Bank.ext (funext fun y => ?_) rfl rfl
  cases y <;> decide

end Registers

namespace RegisterFile

/-- Every view of the array answers as the registers of the processor do. -/
structure Holds (f : RegisterFile) (r : Registers) : Prop where
  get8_eq : ∀ x, f.get8 x = r.byte x
  get16_eq : ∀ x, f.get16 x = r.word x
  flag_eq : ∀ g, f.flag g = r.flags.get g

variable {f : RegisterFile} {r : Registers}

theorem Holds.bank_eq (h : f.Holds r) : f.bank = r.bank :=
  Bank.ext (funext h.get8_eq) (h.get16_eq .sp) (h.get16_eq .pc)

theorem holds_of_bank_eq (h : f.bank = r.bank) : f.Holds r where
  get8_eq x := congrArg (·.cell x) h
  get16_eq x := by
    have hbyte (y : ByteReg) : f.get8 y = r.byte y := congrArg (·.cell y) h
    cases x with
    | af => exact congrArg₂ Word.join (hbyte .a) (hbyte .f)
    | bc => exact congrArg₂ Word.join (hbyte .b) (hbyte .c)
    | de => exact congrArg₂ Word.join (hbyte .d) (hbyte .e)
    | hl => exact congrArg₂ Word.join (hbyte .h) (hbyte .l)
    | sp => exact congrArg Bank.sp h
    | pc => exact congrArg Bank.pc h
  flag_eq g := by
    rw [RegisterFile.flag_eq, h, Flags.get_eq_testBit]
    rfl

theorem Holds.masked (h : f.Holds r) : f.Masked := by
  rw [Masked, h.get8_eq]
  change r.flags.toByte &&& 0x0F = 0
  rw [Flags.toByte_eq]
  exact upperHalf_and _

/-- A write to both keeps them the same. -/
theorem Holds.write (h : f.Holds r) (w : Write) : (f.write w).Holds (r.write w) := by
  apply holds_of_bank_eq
  rw [bank_write h.masked, r.bank_write, h.bank_eq]

theorem Holds.writeAll (h : f.Holds r) (ws : List Write) :
    (f.writeAll ws).Holds (r.writeAll ws) := by
  induction ws generalizing f r with
  | nil => exact h
  | cons w ws ih => exact ih (h.write w)

theorem holds_postBoot : postBoot.Holds .postBoot :=
  holds_of_bank_eq (bank_postBoot.trans Registers.bank_postBoot.symm)

end RegisterFile

end Handheld
