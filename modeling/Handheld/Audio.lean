/-!
The sound registers. No samples are produced: the block keeps what games write, so that
read-backs and the power switch behave. While the power is off, writes are lost.
-/
namespace Handheld

/-- What the bus needs of a sound unit. -/
class AudioUnit (A : Type) where
  /-- Advances by a number of cycles. -/
  step : A → Nat → A
  read : A → UInt16 → UInt8
  write : A → UInt16 → UInt8 → A
  /-- Returns to the power-on state. -/
  reset : A → A

@[ext] structure Sound where
  registers : Vector UInt8 0x17
  deriving DecidableEq

namespace Sound

def base : UInt16 := 0xFF10

/-- The place of the power register, the last one. -/
def power : Fin 0x17 := 0x16

def register? (addr : UInt16) : Option (Fin 0x17) :=
  if h : base ≤ addr ∧ addr.toNat - base.toNat < 0x17 then
    some ⟨addr.toNat - base.toNat, h.2⟩
  else none

/-- The block at power-on: power is on and all else is clear. -/
def postBoot : Sound := ⟨(Vector.replicate 0x17 0).set power 0x80⟩

def powered (s : Sound) : Bool := s.registers[power] &&& 0x80 != 0

/-- The bits of each register that always read as set. -/
def unreadable : Vector UInt8 0x17 :=
  #v[0x80, 0x3F, 0x00, 0xFF, 0xBF, 0xFF, 0x3F, 0x00, 0xFF, 0xBF, 0x7F, 0xFF, 0x9F, 0xFF,
    0xBF, 0xFF, 0xFF, 0x00, 0x00, 0xBF, 0x00, 0x00, 0x70]

def read (s : Sound) (addr : UInt16) : UInt8 :=
  match register? addr with
  | some i => s.registers[i] ||| unreadable[i]
  | none => 0xFF

/-- The power switch clears every register when it goes off. -/
def writePower (s : Sound) (v : UInt8) : Sound :=
  if v &&& 0x80 = 0 then ⟨Vector.replicate 0x17 0⟩ else ⟨s.registers.set power 0x80⟩

def write (s : Sound) (addr : UInt16) (v : UInt8) : Sound :=
  match register? addr with
  | some i =>
    if i = power then s.writePower v
    else if s.powered then ⟨s.registers.set i v⟩
    else s
  | none => s

instance : AudioUnit Sound where
  step s _ := s
  read := read
  write := write
  reset _ := postBoot

end Sound

end Handheld
