import Handheld.HostClock
import Handheld.Cartridge.Calendar

/-!
The cartridge clock. Games read a latched copy of the live registers. The live registers
follow either the emulated cycles or the host's clock, and both are looked at only now
and then.
-/
namespace Handheld

def cyclesPerSecond : Nat := 4194304

inductive ClockMode
  /-- The host's clock, polled once per emulated second. -/
  | wall
  /-- The emulated cycles. -/
  | emulated
  deriving DecidableEq

structure Clock where
  live : ClockRegisters
  latched : ClockRegisters
  mode : ClockMode
  host : HostClock
  /-- The host's time that the live registers have caught up to. -/
  timestamp : UInt64
  /-- Emulated cycles that are not yet whole seconds. -/
  subsecond : Nat
  /-- Cycles since the last look. -/
  sinceCheck : Nat

namespace Clock

/-- Cycles between two looks at the time. -/
def checkPeriod : ClockMode → Nat
  | .wall => cyclesPerSecond
  | .emulated => cyclesPerSecond / 32

/-- A new clock stands at zero and takes the host's time as its starting point. -/
def start (mode : ClockMode) (host : HostClock) : Clock where
  live := .cleared
  latched := .cleared
  mode := mode
  host := host.polled
  timestamp := host.now
  subsecond := 0
  sinceCheck := 0

def latch (k : Clock) : Clock := { k with latched := k.live }

def read (k : Clock) (field : ClockField) : UInt8 := k.latched.get field

/-- A write reaches the live and the latched register; one to the seconds starts a new
second. -/
def write (k : Clock) (field : ClockField) (v : UInt8) : Clock :=
  { k with
    live := k.live.set field v
    latched := k.latched.set field v
    subsecond := if field = .seconds then 0 else k.subsecond }

def advance (k : Clock) (seconds : Nat) : Clock :=
  { k with live := k.live.advance seconds }

/-- Polls the host's clock and catches up with it. Time that runs backwards counts as
none, and so does time while halted. -/
def synchronize (k : Clock) : Clock :=
  let now := k.host.now
  let elapsed := now.toNat - k.timestamp.toNat
  let polled := { k with host := k.host.polled, timestamp := now }
  if k.live.halted then polled else polled.advance elapsed

/-- Turns the whole seconds among the counted cycles into clock time. -/
def settle (k : Clock) : Clock :=
  { k with subsecond := k.subsecond % cyclesPerSecond }.advance (k.subsecond / cyclesPerSecond)

/-- Counts emulated cycles, which stand still while halted. -/
def count (k : Clock) (cycles : Nat) : Clock :=
  if k.live.halted then k else { k with subsecond := k.subsecond + cycles }

/-- Advances by a number of cycles, looking at the time when a period is over. -/
def step (k : Clock) (cycles : Nat) : Clock :=
  let due := checkPeriod k.mode ≤ k.sinceCheck + cycles
  let k := { k with sinceCheck := if due then 0 else k.sinceCheck + cycles }
  match k.mode with
  | .emulated =>
    let k := k.count cycles
    if due then k.settle else k
  | .wall => if due then k.synchronize else k

end Clock

end Handheld
