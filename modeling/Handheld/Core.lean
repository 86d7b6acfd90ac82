import Handheld.Bus
import Handheld.Registers

/-!
The processor on its bus. Actions of the processor are state transformers on the pair;
the primitive ones are charged accesses, internal delays and register changes. No action
takes cycles back.
-/
namespace Handheld

@[ext] structure Cpu where
  regs : Registers
  /-- The master enable of interrupts. -/
  ime : Bool
  halted : Bool
  /-- Cycles taken by every step that ended without an error. -/
  cycles : Nat
  /-- Counts down to the master enable being set. -/
  enableDelay : Nat
  /-- Cycles already run toward the current frame. -/
  frameCycles : Nat
  /-- The instruction at the program counter runs even if it is a breakpoint. -/
  skipBreakpoint : Bool
  deriving DecidableEq

def Cpu.postBoot : Cpu where
  regs := .postBoot
  ime := false
  halted := false
  cycles := 0
  enableDelay := 0
  frameCycles := 0
  skipBreakpoint := false

structure Core (V A : Type) where
  cpu : Cpu
  bus : Bus V A

/-- Actions of the processor on its bus. -/
abbrev Exec (V A : Type) := StateM (Core V A)

namespace Exec

variable {V A : Type} [VideoUnit V] [AudioUnit A] {α β : Type}

def regs : Exec V A Registers := fun s => (s.cpu.regs, s)

def modifyCpu (f : Cpu → Cpu) : Exec V A Unit := fun s => ((), { s with cpu := f s.cpu })

def modifyRegs (f : Registers → Registers) : Exec V A Unit :=
  modifyCpu fun cpu => { cpu with regs := f cpu.regs }

def setByte (r : ByteReg) (v : UInt8) : Exec V A Unit := modifyRegs (·.setByte r v)

def setWord (r : WordReg) (v : UInt16) : Exec V A Unit := modifyRegs (·.setWord r v)

def setFlags (flags : Flags) : Exec V A Unit := modifyRegs fun r => { r with flags := flags }

def idle (cycles : Nat) : Exec V A Unit :=
  fun s => ((), { s with bus := s.bus.advance cycles })

def load (addr : UInt16) : Exec V A UInt8 := fun s =>
  let (v, bus) := s.bus.load addr
  (v, { s with bus := bus })

def loadWord (addr : UInt16) : Exec V A UInt16 := fun s =>
  let (v, bus) := s.bus.loadWord addr
  (v, { s with bus := bus })

def store (addr : UInt16) (v : UInt8) : Exec V A Unit :=
  fun s => ((), { s with bus := s.bus.store addr v })

def storeWord (addr : UInt16) (v : UInt16) : Exec V A Unit :=
  fun s => ((), { s with bus := s.bus.storeWord addr v })

/-- Takes the byte at the program counter. -/
def fetch : Exec V A UInt8 := do
  let r ← regs
  let v ← load r.pc
  setWord .pc (r.pc + 1)
  return v

/-- Takes the word at the program counter. -/
def fetchWord : Exec V A UInt16 := do
  let r ← regs
  let v ← loadWord r.pc
  setWord .pc (r.pc + 2)
  return v

/-- Stores a word on the stack, the high byte first and above the low one. -/
def push (v : UInt16) : Exec V A Unit := do
  let r ← regs
  setWord .sp (r.sp - 1)
  store (r.sp - 1) (Word.high v)
  setWord .sp (r.sp - 2)
  store (r.sp - 2) (Word.low v)

def pop : Exec V A UInt16 := do
  let r ← regs
  let v ← loadWord r.sp
  setWord .sp (r.sp + 2)
  return v

omit [VideoUnit V] [AudioUnit A] in
theorem bind_apply (act : Exec V A α) (next : α → Exec V A β) (s : Core V A) :
    (act >>= next) s = next (act s).1 (act s).2 := rfl

/-- An action that takes no cycles back. -/
def Charging (act : Exec V A α) : Prop :=
  ∀ s, s.bus.cycles ≤ (act s).2.bus.cycles

omit [VideoUnit V] [AudioUnit A] in
theorem Charging.pure (a : α) : Charging (Pure.pure a : Exec V A α) := fun _ => Nat.le_refl _

omit [VideoUnit V] [AudioUnit A] in
theorem Charging.bind {act : Exec V A α} {next : α → Exec V A β} (h : Charging act)
    (hnext : ∀ a, Charging (next a)) : Charging (act >>= next) :=
  fun s => Nat.le_trans (h s) (hnext _ _)

omit [VideoUnit V] [AudioUnit A] in
theorem charging_regs : Charging (regs : Exec V A Registers) := fun _ => Nat.le_refl _

omit [VideoUnit V] [AudioUnit A] in
theorem charging_modifyCpu (f : Cpu → Cpu) : Charging (modifyCpu f : Exec V A Unit) :=
  fun _ => Nat.le_refl _

omit [VideoUnit V] [AudioUnit A] in
theorem charging_modifyRegs (f : Registers → Registers) :
    Charging (modifyRegs f : Exec V A Unit) := charging_modifyCpu _

omit [VideoUnit V] [AudioUnit A] in
theorem charging_setByte (r : ByteReg) (v : UInt8) : Charging (setByte r v : Exec V A Unit) :=
  charging_modifyRegs _

omit [VideoUnit V] [AudioUnit A] in
theorem charging_setWord (r : WordReg) (v : UInt16) : Charging (setWord r v : Exec V A Unit) :=
  charging_modifyRegs _

omit [VideoUnit V] [AudioUnit A] in
theorem charging_setFlags (flags : Flags) : Charging (setFlags flags : Exec V A Unit) :=
  charging_modifyRegs _

theorem charging_idle (n : Nat) : Charging (idle n : Exec V A Unit) :=
  fun _ => Nat.le_add_right _ _

theorem charging_load (addr : UInt16) : Charging (load addr : Exec V A UInt8) :=
  fun _ => Nat.le_add_right _ _

theorem charging_loadWord (addr : UInt16) : Charging (loadWord addr : Exec V A UInt16) :=
  fun s => by simp [loadWord]

theorem charging_store (addr : UInt16) (v : UInt8) : Charging (store addr v : Exec V A Unit) :=
  fun s => by simp [store]

theorem charging_storeWord (addr v : UInt16) : Charging (storeWord addr v : Exec V A Unit) :=
  fun s => by simp [storeWord]

theorem charging_fetch : Charging (fetch : Exec V A UInt8) :=
  charging_regs.bind fun _ => (charging_load _).bind fun _ =>
    (charging_setWord _ _).bind fun _ => .pure _

theorem charging_fetchWord : Charging (fetchWord : Exec V A UInt16) :=
  charging_regs.bind fun _ => (charging_loadWord _).bind fun _ =>
    (charging_setWord _ _).bind fun _ => .pure _

theorem charging_push (v : UInt16) : Charging (push v : Exec V A Unit) :=
  charging_regs.bind fun _ => (charging_setWord _ _).bind fun _ =>
    (charging_store _ _).bind fun _ => (charging_setWord _ _).bind fun _ => charging_store _ _

theorem charging_pop : Charging (pop : Exec V A UInt16) :=
  charging_regs.bind fun _ => (charging_loadWord _).bind fun _ =>
    (charging_setWord _ _).bind fun _ => .pure _

/-- A fetch takes the cycles of one access. -/
theorem cycles_fetch (s : Core V A) :
    ((fetch : Exec V A UInt8) s).2.bus.cycles = s.bus.cycles + Bus.accessCycles := rfl

end Exec

end Handheld
