import Handheld.Memory
import Handheld.Word
import Handheld.Timer
import Handheld.Joypad
import Handheld.Video
import Handheld.Audio
import Handheld.Cartridge.Mapper

/-!
The memory bus. Every address belongs to one region, and the region names the device that
serves it; what no device serves is plain storage. A charged access costs four cycles per
byte, and whatever counts time advances with the cycles charged.
-/
namespace Handheld

inductive Region
  | cartridgeRom
  | cartridgeRam
  | workRam
  | joypad
  | timer
  | interruptFlag
  | sound
  | display
  | interruptEnable
  | plain
  deriving DecidableEq

def Region.of (addr : UInt16) : Region :=
  if addr < 0x8000 then .cartridgeRom
  else if addr < 0xA000 then .plain
  else if addr < 0xC000 then .cartridgeRam
  else if addr < 0xFE00 then .workRam
  else if addr < 0xFF00 then .plain
  else if addr = 0xFF00 then .joypad
  else if 0xFF04 ≤ addr ∧ addr ≤ 0xFF07 then .timer
  else if addr = 0xFF0F then .interruptFlag
  else if 0xFF10 ≤ addr ∧ addr ≤ 0xFF26 then .sound
  else if 0xFF40 ≤ addr ∧ addr ≤ 0xFF4B then .display
  else if addr = 0xFFFF then .interruptEnable
  else .plain

abbrev Slot := Option Cartridge

namespace Slot

def hasRam (s : Slot) : Bool :=
  match s with
  | some c => c.hasRam
  | none => false

@[noinline] def write (s : Slot) (addr : UInt16) (v : UInt8) : Slot := s.map (·.write addr v)

@[noinline] def step (s : Slot) (cycles : Nat) : Slot := s.map (·.step cycles)

end Slot

/-- The bus with a display `V` and, if there is one, a sound unit `A`. -/
structure Bus (V A : Type) where
  slot : Slot
  workRam : Memory 0x2000
  /-- Every address that no device serves. -/
  storage : Memory 0x10000
  requested : Requests
  enabled : Requests
  timer : Timer
  joypad : Joypad
  video : V
  audio : Option A
  /-- Every cycle charged since power-on. -/
  cycles : Nat

namespace Bus

variable {V A : Type} [VideoUnit V] [AudioUnit A]

def powerOn (video : V) (audio : Option A) (slot : Slot) : Bus V A where
  slot := slot
  workRam := .zero _
  storage := .zero _
  requested := 0x01
  enabled := 0
  timer := .postBoot
  joypad := .released
  video := VideoUnit.reset video
  audio := audio.map AudioUnit.reset
  cycles := 0

/-- Power-on state; the cartridge stays as it is. -/
def reset (b : Bus V A) : Bus V A := powerOn b.video b.audio b.slot

def insert (b : Bus V A) (c : Cartridge) : Bus V A := { b with slot := some c }

def plainCell (addr : UInt16) : Fin 0x10000 := ⟨addr.toNat, addr.toNat_lt⟩

/-- The cell of an address in the work RAM, which repeats every 8 KiB. -/
def workCell (addr : UInt16) : Fin 0x2000 := ⟨addr.toNat % 0x2000, Nat.mod_lt _ (by decide)⟩

def readPlain (b : Bus V A) (addr : UInt16) : UInt8 := b.storage.get (plainCell addr)

def writePlain (b : Bus V A) (addr : UInt16) (v : UInt8) : Bus V A :=
  { b with storage := b.storage.set (plainCell addr) v }

def writeSlot (b : Bus V A) (addr : UInt16) (v : UInt8) : Bus V A :=
  { b with slot := Slot.write b.slot addr v }

def request (b : Bus V A) (raised : Requests) : Bus V A :=
  { b with requested := b.requested ||| raised }

/-- The byte at an address. Reading charges no cycles and changes nothing. -/
def read (b : Bus V A) (addr : UInt16) : UInt8 :=
  match Region.of addr with
  | .cartridgeRom =>
    match b.slot with
    | some c => c.read addr
    | none => b.readPlain addr
  | .cartridgeRam =>
    match b.slot with
    | some c => if c.hasRam then c.read addr else b.readPlain addr
    | none => b.readPlain addr
  | .workRam => b.workRam.get (workCell addr)
  | .joypad => b.joypad.read
  | .timer => b.timer.read addr
  | .interruptFlag => b.requested ||| 0xE0
  | .sound =>
    match b.audio with
    | some a => AudioUnit.read a addr
    | none => b.readPlain addr
  | .display => VideoUnit.read b.video addr
  | .interruptEnable => b.enabled
  | .plain => b.readPlain addr

def dmaRegister : UInt16 := 0xFF46

/-- The object table, where a page transfer goes. -/
def objectTable : UInt16 := 0xFE00

/-- The number of bytes that a page transfer moves. -/
def objectTableSize : Nat := 0xA0

/-- Copies the start of a page to the object table at once, a byte after the other. -/
def transferPage (b : Bus V A) (page : UInt8) : Bus V A :=
  (List.range objectTableSize).foldl
    (fun b i =>
      b.writePlain (objectTable + UInt16.ofNat i) (b.read (Word.join page 0 + UInt16.ofNat i)))
    b

def writeTimer (b : Bus V A) (addr : UInt16) (v : UInt8) : Bus V A :=
  let (timer, raised) := b.timer.write addr v
  { b with timer := timer }.request raised

/-- A write to the transfer register also starts a transfer. -/
def writeVideo (b : Bus V A) (addr : UInt16) (v : UInt8) : Bus V A :=
  let written := { b with video := VideoUnit.write b.video addr v }
  if addr = dmaRegister then written.transferPage v else written

/-- Stores a byte at an address. Writing charges no cycles. -/
def write (b : Bus V A) (addr : UInt16) (v : UInt8) : Bus V A :=
  match Region.of addr with
  | .cartridgeRom => if b.slot.isSome then b.writeSlot addr v else b.writePlain addr v
  | .cartridgeRam => if Slot.hasRam b.slot then b.writeSlot addr v else b.writePlain addr v
  | .workRam => { b with workRam := b.workRam.set (workCell addr) v }
  | .joypad => { b with joypad := b.joypad.write v }
  | .timer => b.writeTimer addr v
  | .interruptFlag => { b with requested := v &&& 0x1F }
  | .sound =>
    match b.audio with
    | some a => { b with audio := some (AudioUnit.write a addr v) }
    | none => b.writePlain addr v
  | .display => b.writeVideo addr v
  | .interruptEnable => { b with enabled := v }
  | .plain => b.writePlain addr v

def advance (b : Bus V A) (cycles : Nat) : Bus V A :=
  let (timer, timerRaised) := b.timer.step cycles
  let (video, videoRaised) := VideoUnit.step b.video cycles
  { b with
    slot := Slot.step b.slot cycles
    requested := b.requested ||| timerRaised ||| videoRaised
    timer := timer
    video := video
    audio := b.audio.map (AudioUnit.step · cycles)
    cycles := b.cycles + cycles }

/-- Cycles charged for each byte of an access. -/
def accessCycles : Nat := 4

/-- A charged read of a byte. -/
def load (b : Bus V A) (addr : UInt16) : UInt8 × Bus V A :=
  (b.read addr, b.advance accessCycles)

/-- A charged read of a word, the low byte first. -/
def loadWord (b : Bus V A) (addr : UInt16) : UInt16 × Bus V A :=
  let (low, b) := b.load addr
  let (high, b) := b.load (addr + 1)
  (Word.join high low, b)

/-- A charged write of a byte. -/
def store (b : Bus V A) (addr : UInt16) (v : UInt8) : Bus V A :=
  (b.write addr v).advance accessCycles

/-- A charged write of a word, the low byte first. -/
def storeWord (b : Bus V A) (addr : UInt16) (v : UInt16) : Bus V A :=
  (b.store addr (Word.low v)).store (addr + 1) (Word.high v)

/-- Presses or releases a button, requesting the joypad interrupt where it is due. -/
def setButton (b : Bus V A) (button : Button) (pressed : Bool) : Bus V A :=
  let (joypad, raised) := b.joypad.update button pressed
  let b := { b with joypad := joypad }
  if raised then b.request Interrupt.joypad.mask else b

@[simp] theorem cycles_advance (b : Bus V A) (n : Nat) :
    (b.advance n).cycles = b.cycles + n := rfl

omit [VideoUnit V] [AudioUnit A] in
@[simp] theorem cycles_writePlain (b : Bus V A) (addr : UInt16) (v : UInt8) :
    (b.writePlain addr v).cycles = b.cycles := rfl

/-- A page transfer keeps what plain writes keep. -/
theorem transferPage_keeps {α : Type} (f : Bus V A → α)
    (hf : ∀ b addr v, f (b.writePlain addr v) = f b) (b : Bus V A) (page : UInt8) :
    f (b.transferPage page) = f b := by
  unfold transferPage
  generalize List.range objectTableSize = indices
  induction indices generalizing b with
  | nil => rfl
  | cons i rest ih =>
    rw [List.foldl_cons, ih]
    exact hf b _ _

theorem writeVideo_keeps {α : Type} (f : Bus V A → α)
    (hf : ∀ b addr v, f (b.writePlain addr v) = f b) (b : Bus V A) (addr : UInt16) (v : UInt8) :
    f (b.writeVideo addr v) = f { b with video := VideoUnit.write b.video addr v } := by
  unfold writeVideo
  dsimp only
  split
  · exact transferPage_keeps f hf _ v
  · rfl

@[simp] theorem cycles_write (b : Bus V A) (addr : UInt16) (v : UInt8) :
    (b.write addr v).cycles = b.cycles := by
  unfold write
  split
  · split <;> rfl
  · split <;> rfl
  · rfl
  · rfl
  · rfl
  · rfl
  · split <;> rfl
  · exact writeVideo_keeps Bus.cycles cycles_writePlain b addr v
  · rfl
  · rfl

@[simp] theorem cycles_load (b : Bus V A) (addr : UInt16) :
    (b.load addr).2.cycles = b.cycles + accessCycles := rfl

@[simp] theorem cycles_loadWord (b : Bus V A) (addr : UInt16) :
    (b.loadWord addr).2.cycles = b.cycles + 2 * accessCycles := by
  simp only [loadWord, cycles_load]
  omega

@[simp] theorem cycles_store (b : Bus V A) (addr : UInt16) (v : UInt8) :
    (b.store addr v).cycles = b.cycles + accessCycles := by simp [store]

@[simp] theorem cycles_storeWord (b : Bus V A) (addr : UInt16) (v : UInt16) :
    (b.storeWord addr v).cycles = b.cycles + 2 * accessCycles := by
  simp only [storeWord, cycles_store]
  omega

end Bus

end Handheld
