import Handheld.Text.Blank
import Handheld.Text.Lossy

/-!
The cartridge header: title, bank controller, sizes, battery and clock, read from fixed
places of the ROM. A byte past the end of a short ROM counts as zero.
-/
namespace Handheld

inductive MapperKind
  | fixed
  | mbc1
  | mbc3
  deriving DecidableEq

structure Header where
  title : String
  cartridgeType : UInt8
  kind : MapperKind
  romSize : Nat
  ramSize : Nat
  battery : Bool
  timer : Bool
  deriving DecidableEq

/-- The byte at a place of the ROM, if it is that long. -/
def romByte? (rom : ByteArray) (i : Nat) : Option UInt8 :=
  if h : i < rom.size then some (rom.get i h) else none

namespace Header

def titleStart : Nat := 0x134

def titleEnd : Nat := 0x144

/-- The title field up to its first zero byte, decoded and trimmed. -/
def parseTitle (rom : ByteArray) : String :=
  let field := (rom.extract titleStart titleEnd).data.toList
  String.ofList (Text.trim (Text.decodeLossy (field.takeWhile (· != 0))))

/-- Types of unknown controllers are taken to have none. -/
def mapperKind (cartridgeType : UInt8) : MapperKind :=
  if 0x01 ≤ cartridgeType ∧ cartridgeType ≤ 0x03 then .mbc1
  else if 0x0F ≤ cartridgeType ∧ cartridgeType ≤ 0x13 then .mbc3
  else .fixed

def batteryTypes : List UInt8 :=
  [0x03, 0x06, 0x09, 0x0D, 0x0F, 0x10, 0x13, 0x1B, 0x1E, 0x22, 0xFF]

def timerTypes : List UInt8 := [0x0F, 0x10]

def ramSizeOf (code : UInt8) : Nat :=
  match code with
  | 0x01 => 0x800
  | 0x02 => 0x2000
  | 0x03 => 0x8000
  | 0x04 => 0x20000
  | 0x05 => 0x10000
  | _ => 0

def parse (rom : ByteArray) : Header :=
  let byte (i : Nat) := (romByte? rom i).getD 0
  let cartridgeType := byte 0x147
  let romCode := byte 0x148
  { title := parseTitle rom
    cartridgeType := cartridgeType
    kind := mapperKind cartridgeType
    romSize := if romCode ≤ 0x08 then 0x8000 <<< romCode.toNat else rom.size
    ramSize := ramSizeOf (byte 0x149)
    battery := batteryTypes.contains cartridgeType
    timer := timerTypes.contains cartridgeType }

end Header

end Handheld
