import Handheld.Cartridge.Header
import Handheld.Cartridge.Clock

/-!
Cartridges and their bank controllers. Writes to the ROM area set the controller's
registers; reads go to the fixed bank, the mapped bank, the RAM or a clock register.
-/
namespace Handheld

/-- What the third controller shows in the RAM window. -/
inductive Selection
  | ram (bank : Fin 4)
  | clock (field : ClockField)
  deriving DecidableEq

@[ext] structure Mbc1 where
  romBank : UInt8
  ramEnabled : Bool
  deriving DecidableEq

structure Mbc3 where
  romBank : UInt8
  ramEnabled : Bool
  selection : Selection
  /-- The last write to the latch area was a zero. -/
  latchArmed : Bool
  clock : Option Clock

inductive Mapper
  /-- No controller: two banks and no RAM. -/
  | fixed
  | mbc1 (m : Mbc1)
  | mbc3 (m : Mbc3)

structure Cartridge where
  rom : ByteArray
  ram : ByteArray
  mapper : Mapper

inductive CartridgeArea
  | ramEnable
  | romBank
  | selection
  | latch
  | ram
  | none
  deriving DecidableEq

/-- Areas are blocks of 8 KiB. -/
def CartridgeArea.of (addr : UInt16) : CartridgeArea :=
  match addr.toNat / 0x2000 with
  | 0 => .ramEnable
  | 1 => .romBank
  | 2 => .selection
  | 3 => .latch
  | 5 => .ram
  | _ => .none

def romBankSize : Nat := 0x4000

def ramBankSize : Nat := 0x2000

def ramOffset (addr : UInt16) : Nat := addr.toNat % ramBankSize

/-- Writing a low nibble of ten enables the RAM and anything else disables it. -/
def enablesRam (v : UInt8) : Bool := v &&& 0x0F == 0x0A

/-- A bank register that is zero counts as one. -/
def nonzeroBank (v : UInt8) : UInt8 := if v = 0 then 1 else v

namespace Mbc1

def powerOn : Mbc1 := ⟨1, false⟩

/-- A write to the controller's registers: five low bits and two high bits of the bank. -/
def write (m : Mbc1) (addr : UInt16) (v : UInt8) : Mbc1 :=
  match CartridgeArea.of addr with
  | .ramEnable => { m with ramEnabled := enablesRam v }
  | .romBank => { m with romBank := (m.romBank &&& 0x60) ||| nonzeroBank (v &&& 0x1F) }
  | .selection => { m with romBank := (m.romBank &&& 0x1F) ||| 0x20 * (v &&& 0x03) }
  | _ => m

end Mbc1

namespace Mbc3

def powerOn (clock : Option Clock) : Mbc3 := ⟨1, false, .ram 0, false, clock⟩

/-- The selection that a value makes, clock registers only where there is a clock. -/
def selection? (hasClock : Bool) (v : UInt8) : Option Selection :=
  match v with
  | 0x00 => some (.ram 0)
  | 0x01 => some (.ram 1)
  | 0x02 => some (.ram 2)
  | 0x03 => some (.ram 3)
  | 0x08 => if hasClock then some (.clock .seconds) else none
  | 0x09 => if hasClock then some (.clock .minutes) else none
  | 0x0A => if hasClock then some (.clock .hours) else none
  | 0x0B => if hasClock then some (.clock .dayLow) else none
  | 0x0C => if hasClock then some (.clock .dayHigh) else none
  | _ => none

/-- A one written after a zero latches the clock. -/
def writeLatch (m : Mbc3) (v : UInt8) : Mbc3 :=
  let clock := if v = 1 ∧ m.latchArmed then m.clock.map Clock.latch else m.clock
  { m with latchArmed := v == 0, clock := clock }

/-- A write to the RAM window reaches the clock if one of its registers is selected. -/
def writeClock (m : Mbc3) (v : UInt8) : Mbc3 :=
  match m.ramEnabled, m.selection with
  | true, .clock field => { m with clock := m.clock.map (·.write field v) }
  | _, _ => m

def write (m : Mbc3) (addr : UInt16) (v : UInt8) : Mbc3 :=
  match CartridgeArea.of addr with
  | .ramEnable => { m with ramEnabled := enablesRam v }
  | .romBank => { m with romBank := nonzeroBank (v &&& 0x7F) }
  | .selection => { m with selection := (selection? m.clock.isSome v).getD m.selection }
  | .latch => m.writeLatch v
  | .ram => m.writeClock v
  | .none => m

end Mbc3

namespace Mapper

/-- The bank shown in the upper half of the ROM area. -/
def romBank : Mapper → UInt8
  | fixed => 1
  | mbc1 m => m.romBank
  | mbc3 m => m.romBank

def clock? : Mapper → Option Clock
  | mbc3 m => m.clock
  | _ => none

def mapClock (f : Clock → Clock) : Mapper → Mapper
  | mbc3 m => mbc3 { m with clock := m.clock.map f }
  | m => m

def write : Mapper → UInt16 → UInt8 → Mapper
  | fixed, _, _ => fixed
  | mbc1 m, addr, v => mbc1 (m.write addr v)
  | mbc3 m, addr, v => mbc3 (m.write addr v)

/-- The RAM cell that an address of the window reaches, in a RAM of `size` bytes. -/
def ramCell? (mapper : Mapper) (size : Nat) (addr : UInt16) : Option Nat :=
  match mapper with
  | fixed => none
  | mbc1 m => if m.ramEnabled ∧ size ≠ 0 then some (ramOffset addr % size) else none
  | mbc3 m =>
    match m.ramEnabled, m.selection with
    | true, .ram bank => some (bank.val * ramBankSize + ramOffset addr)
    | _, _ => none

/-- What the window reads where no RAM cell is reached. -/
def windowDefault : Mapper → UInt8
  | fixed => 0xFF
  | mbc1 _ => 0xFF
  | mbc3 m =>
    match m.ramEnabled, m.selection, m.clock with
    | true, .clock field, some clock => clock.read field
    | true, _, _ => 0xFF
    | false, _, _ => 0

end Mapper

namespace Cartridge

/-- A cartridge at power-on, with its controller and RAM as the header tells. -/
def ofRom (rom : ByteArray) (mode : ClockMode) (host : HostClock) : Cartridge :=
  let header := Header.parse rom
  let (mapper, ramSize) :=
    match header.kind with
    | .fixed => (Mapper.fixed, 0)
    | .mbc1 => (.mbc1 .powerOn, min header.ramSize ramBankSize)
    | .mbc3 =>
      let clock := if header.timer then some (Clock.start mode host) else none
      (.mbc3 (.powerOn clock), 4 * ramBankSize)
  { rom := rom, ram := ⟨Array.replicate ramSize 0⟩, mapper := mapper }

def header (c : Cartridge) : Header := Header.parse c.rom

def hasRam (c : Cartridge) : Bool := c.ram.size != 0

def romBank (c : Cartridge) : UInt8 := c.mapper.romBank

def clock? (c : Cartridge) : Option Clock := c.mapper.clock?

def mapClock (c : Cartridge) (f : Clock → Clock) : Cartridge :=
  { c with mapper := c.mapper.mapClock f }

/-- The number of ROM banks, the last of which may be incomplete. -/
def romBanks (c : Cartridge) : Nat := max 1 ((c.rom.size + (romBankSize - 1)) / romBankSize)

/-- A byte of a ROM bank. Bank numbers wrap, and what the image lacks reads as set. -/
def romByte (c : Cartridge) (bank offset : Nat) : UInt8 :=
  (romByte? c.rom (bank % c.romBanks * romBankSize + offset)).getD 0xFF

def ramByte (c : Cartridge) (cell : Nat) : UInt8 :=
  if h : cell < c.ram.size then c.ram.get cell h else 0xFF

def setRamByte (c : Cartridge) (cell : Nat) (v : UInt8) : Cartridge :=
  if h : cell < c.ram.size then { c with ram := c.ram.set cell v h } else c

def readWindow (c : Cartridge) (addr : UInt16) : UInt8 :=
  match c.mapper.ramCell? c.ram.size addr with
  | some cell => c.ramByte cell
  | none => c.mapper.windowDefault

def read (c : Cartridge) (addr : UInt16) : UInt8 :=
  if addr < 0x4000 then (romByte? c.rom addr.toNat).getD 0xFF
  else if addr < 0x8000 then c.romByte c.romBank.toNat (addr.toNat - 0x4000)
  else if 0xA000 ≤ addr ∧ addr < 0xC000 then c.readWindow addr
  else 0xFF

/-- A write to the window goes to the RAM cell it reaches and otherwise to the
controller, which also takes every write to the ROM area. -/
def write (c : Cartridge) (addr : UInt16) (v : UInt8) : Cartridge :=
  match CartridgeArea.of addr with
  | .ram =>
    match c.mapper.ramCell? c.ram.size addr with
    | some cell => c.setRamByte cell v
    | none => { c with mapper := c.mapper.write addr v }
  | _ => { c with mapper := c.mapper.write addr v }

def step (c : Cartridge) (cycles : Nat) : Cartridge :=
  match c.mapper with
  | .mbc3 m =>
    match m.clock with
    | some k => { c with mapper := .mbc3 { m with clock := some (k.step cycles) } }
    | none => c
  | _ => c

end Cartridge

end Handheld
