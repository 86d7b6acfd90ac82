import Handheld.Cartridge.Mapper

/-!
Battery saves: the RAM, followed on clock cartridges by a block of the live registers, the
latched registers and the timestamp. Loading a save takes effect in full or not at all.
-/
namespace Handheld

inductive SaveError
  | tooShort (length expected : Nat)
  | badClockBlock (length : Nat)
  deriving DecidableEq

def SaveError.message : SaveError → String
  | tooShort length expected =>
    s!"save data is {length} bytes but cartridge RAM needs {expected}"
  | badClockBlock length => s!"unexpected {length}-byte block after cartridge RAM"

/-- The `count` low bytes of a number, the lowest first. -/
def littleEndian (value count : Nat) : List UInt8 :=
  (List.range count).map fun i => UInt8.ofNat (value >>> (8 * i))

/-- The number whose bytes are given, the lowest first. -/
def ofLittleEndian (bytes : List UInt8) : Nat :=
  bytes.foldr (fun b value => b.toNat + 256 * value) 0

namespace Clock

def blockLength : Nat := 48

/-- The length of the older block, whose timestamp has four bytes. -/
def shortBlockLength : Nat := 44

/-- Each register takes four bytes and the timestamp eight. -/
def toBlock (k : Clock) : List UInt8 :=
  (k.live.toList ++ k.latched.toList).flatMap (fun v => littleEndian v.toNat 4) ++
    littleEndian k.timestamp.toNat 8

/-- The registers in a block from `start` on, each in the lowest of its four bytes. -/
def registersAt (block : List UInt8) (start : Nat) : ClockRegisters :=
  ClockRegisters.ofValue fun field =>
    block.getD (start + 4 * ClockField.all.idxOf field) 0

/-- Takes registers and timestamp from a block and starts counting anew. -/
def restore (k : Clock) (block : List UInt8) : Clock :=
  { k with
    live := registersAt block 0
    latched := registersAt block 20
    timestamp := UInt64.ofNat (ofLittleEndian (block.drop 40))
    subsecond := 0
    sinceCheck := 0 }

end Clock

namespace Cartridge

def save (c : Cartridge) : ByteArray :=
  match c.clock? with
  | some k => c.ram ++ ⟨k.toBlock.toArray⟩
  | none => c.ram

def blockLengths (c : Cartridge) : List Nat :=
  match c.clock? with
  | some _ => [Clock.blockLength, Clock.shortBlockLength]
  | none => [0]

def load (c : Cartridge) (data : ByteArray) : Except SaveError Cartridge :=
  let expected := c.ram.size
  if data.size < expected then .error (.tooShort data.size expected)
  else if data.size - expected ∈ c.blockLengths then
    let block := (data.extract expected data.size).data.toList
    .ok ({ c with ram := data.extract 0 expected }.mapClock (·.restore block))
  else .error (.badClockBlock (data.size - expected))

end Cartridge

end Handheld
