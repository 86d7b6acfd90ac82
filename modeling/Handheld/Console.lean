import Handheld.Frame
import Handheld.Cartridge.Save

/-!
The console: the processor with the built-in display and sound registers, the breakpoints
and the pause at one of them. Inserting a cartridge and resetting put everything but the
cartridge and the breakpoints back to power-on.
-/
namespace Handheld

inductive FrameOutcome
  | complete
  /-- The next instruction is at an enabled breakpoint. -/
  | breakpoint (pc : UInt16)
  /-- The machine is still paused at a breakpoint; nothing ran. -/
  | paused (pc : UInt16)
  deriving DecidableEq

structure Console where
  core : Core Lcd Sound
  breakpoints : Breakpoints
  clockMode : ClockMode
  /-- The breakpoint that the machine stopped at. -/
  pausedAt : Option UInt16

def Core.powerOn (slot : Slot) : Core Lcd Sound where
  cpu := .postBoot
  bus := .powerOn .postBoot (some .postBoot) slot

namespace Console

def powerOn (clockMode : ClockMode) : Console where
  core := .powerOn none
  breakpoints := .empty
  clockMode := clockMode
  pausedAt := none

/-- Power-on state but for the cartridge and the breakpoints. -/
def reset (c : Console) : Console :=
  { c with
    core := { cpu := .postBoot, bus := c.core.bus.reset }
    pausedAt := none }

/-- Inserts a cartridge and resets. -/
def insert (c : Console) (cartridge : Cartridge) : Console :=
  { c with core := { c.core with bus := c.core.bus.insert cartridge } }.reset

/-- Inserts a cartridge made of a ROM image, whose clock follows the console's mode. -/
def insertRom (c : Console) (rom : ByteArray) (host : HostClock) : Console :=
  c.insert (.ofRom rom c.clockMode host)

def cartridge? (c : Console) : Option Cartridge := c.core.bus.slot

def setHost (c : Console) (host : HostClock) : Console :=
  match c.cartridge? with
  | some cartridge =>
    let cartridge := cartridge.mapClock fun k => { k with host := host }
    { c with core := { c.core with bus := c.core.bus.insert cartridge } }
  | none => c

def paused (c : Console) : Bool := c.pausedAt.isSome

/-- Runs one step, whatever the breakpoints. -/
def step (c : Console) : Except CpuError Nat × Console :=
  let (result, core) := Exec.step c.core
  (result, { c with core := core })

/-- Runs one frame, unless paused. A breakpoint that is reached pauses the machine. -/
def runFrame (c : Console) : Except CpuError FrameOutcome × Console :=
  match c.pausedAt with
  | some pc => (.ok (.paused pc), c)
  | none =>
    match c.core.runFrame c.breakpoints with
    | (.error e, core) => (.error e, { c with core := core })
    | (.ok none, core) => (.ok .complete, { c with core := core })
    | (.ok (some pc), core) => (.ok (.breakpoint pc), { c with core := core, pausedAt := some pc })

/-- Ends a pause. The instruction at the breakpoint runs before breakpoints are asked
again. -/
def resume (c : Console) : Console :=
  match c.pausedAt with
  | some _ => { c with core := c.core.setSkip true, pausedAt := none }
  | none => c

def setButton (c : Console) (button : Button) (pressed : Bool) : Console :=
  { c with core := { c.core with bus := c.core.bus.setButton button pressed } }

def press (c : Console) (button : Button) : Console := c.setButton button true

def release (c : Console) (button : Button) : Console := c.setButton button false

/-- The battery save, empty without a cartridge. -/
def save (c : Console) : ByteArray :=
  match c.cartridge? with
  | some cartridge => cartridge.save
  | none => .empty

/-- Loads a battery save. Without a cartridge only an empty one fits. -/
def load (c : Console) (data : ByteArray) : Except SaveError Console :=
  match c.cartridge? with
  | some cartridge => do
    let loaded ← cartridge.load data
    return { c with core := { c.core with bus := c.core.bus.insert loaded } }
  | none => if data.size = 0 then .ok c else .error (.badClockBlock data.size)

end Console

end Handheld
