import Handheld.Word

/-!
The register file. Byte registers, register pairs and single flags are three views of
the same state: a pair is its high byte followed by its low byte, and the flag register
is a byte whose upper half holds the four flags and whose lower half is always zero.
-/
namespace Handheld

inductive ByteReg
  | a
  | f
  | b
  | c
  | d
  | e
  | h
  | l
  deriving DecidableEq

inductive WordReg
  | af
  | bc
  | de
  | hl
  | sp
  | pc
  deriving DecidableEq

inductive Flag
  | zero
  | subtract
  | halfCarry
  | carry
  deriving DecidableEq

def Flag.mask : Flag → UInt8
  | zero => 0x80
  | subtract => 0x40
  | halfCarry => 0x20
  | carry => 0x10

@[ext] structure Flags where
  zero : Bool
  subtract : Bool
  halfCarry : Bool
  carry : Bool
  deriving DecidableEq

namespace Flags

def none : Flags := ⟨false, false, false, false⟩

def get (fs : Flags) : Flag → Bool
  | .zero => fs.zero
  | .subtract => fs.subtract
  | .halfCarry => fs.halfCarry
  | .carry => fs.carry

def set (fs : Flags) (flag : Flag) (on : Bool) : Flags :=
  match flag with
  | .zero => { fs with zero := on }
  | .subtract => { fs with subtract := on }
  | .halfCarry => { fs with halfCarry := on }
  | .carry => { fs with carry := on }

def toByte (fs : Flags) : UInt8 :=
  (if fs.zero then Flag.zero.mask else 0) |||
  (if fs.subtract then Flag.subtract.mask else 0) |||
  (if fs.halfCarry then Flag.halfCarry.mask else 0) |||
  (if fs.carry then Flag.carry.mask else 0)

/-- The flags of a byte, whose lower half is ignored. -/
def ofByte (v : UInt8) : Flags where
  zero := v &&& Flag.zero.mask != 0
  subtract := v &&& Flag.subtract.mask != 0
  halfCarry := v &&& Flag.halfCarry.mask != 0
  carry := v &&& Flag.carry.mask != 0

theorem ofByte_toByte (fs : Flags) : ofByte fs.toByte = fs := by
  obtain ⟨z, n, h, c⟩ := fs
  revert z n h c
  decide

theorem get_set (fs : Flags) (i j : Flag) (on : Bool) :
    (fs.set i on).get j = if i = j then on else fs.get j := by
  cases i <;> cases j <;> rfl

end Flags

@[ext] structure Registers where
  a : UInt8
  flags : Flags
  b : UInt8
  c : UInt8
  d : UInt8
  e : UInt8
  h : UInt8
  l : UInt8
  sp : UInt16
  pc : UInt16
  deriving DecidableEq

namespace Registers

def cleared : Registers := ⟨0, Flags.none, 0, 0, 0, 0, 0, 0, 0, 0⟩

def byte (r : Registers) : ByteReg → UInt8
  | .a => r.a
  | .f => r.flags.toByte
  | .b => r.b
  | .c => r.c
  | .d => r.d
  | .e => r.e
  | .h => r.h
  | .l => r.l

/-- A byte stored in the flag register loses its lower half. -/
def setByte (r : Registers) (reg : ByteReg) (v : UInt8) : Registers :=
  match reg with
  | .a => { r with a := v }
  | .f => { r with flags := Flags.ofByte v }
  | .b => { r with b := v }
  | .c => { r with c := v }
  | .d => { r with d := v }
  | .e => { r with e := v }
  | .h => { r with h := v }
  | .l => { r with l := v }

def word (r : Registers) : WordReg → UInt16
  | .af => Word.join r.a r.flags.toByte
  | .bc => Word.join r.b r.c
  | .de => Word.join r.d r.e
  | .hl => Word.join r.h r.l
  | .sp => r.sp
  | .pc => r.pc

def setWord (r : Registers) (reg : WordReg) (v : UInt16) : Registers :=
  match reg with
  | .af => { r with a := Word.high v, flags := Flags.ofByte (Word.low v) }
  | .bc => { r with b := Word.high v, c := Word.low v }
  | .de => { r with d := Word.high v, e := Word.low v }
  | .hl => { r with h := Word.high v, l := Word.low v }
  | .sp => { r with sp := v }
  | .pc => { r with pc := v }

def setFlag (r : Registers) (flag : Flag) (on : Bool) : Registers :=
  { r with flags := r.flags.set flag on }

/-- The registers as the boot program leaves them when it hands over to the cartridge. -/
def postBoot : Registers :=
  ((((cleared.setWord .af 0x01B0).setWord .bc 0x0013).setWord .de 0x00D8).setWord .hl
    0x014D).setWord .sp 0xFFFE |>.setWord .pc 0x0100

end Registers

end Handheld
