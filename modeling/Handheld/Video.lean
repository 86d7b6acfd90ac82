import Handheld.Interrupt

/-!
The display registers. No pixels are drawn: the block keeps its registers and walks the
beam through the frame of 154 lines of 456 cycles, so that games which wait for a line or
for the vertical blank make progress. The status interrupt is raised when the OR of its
enabled sources rises.
-/
namespace Handheld

/-- What the bus needs of a display. -/
class VideoUnit (V : Type) where
  /-- Advances by a number of cycles and gives the requests raised. A unit only sets bits of the
  register of requests, so these are all that it does to it. -/
  step : V → Nat → V × Requests
  read : V → UInt16 → UInt8
  write : V → UInt16 → UInt8 → V
  /-- Returns to the power-on state. -/
  reset : V → V

@[ext] structure Lcd where
  control : UInt8
  status : UInt8
  scrollY : UInt8
  scrollX : UInt8
  line : UInt8
  lineCompare : UInt8
  dmaPage : UInt8
  palette : UInt8
  objectPalette0 : UInt8
  objectPalette1 : UInt8
  windowY : UInt8
  windowX : UInt8
  /-- Cycles since the start of the line. -/
  lineClock : Nat
  /-- The OR of the enabled status sources as last sampled. -/
  statusLine : Bool
  deriving DecidableEq

namespace Lcd

def lineCycles : Nat := 456

def visibleLines : UInt8 := 144

def totalLines : UInt8 := 154

/-- Cycles of a visible line before which the display scans objects. -/
def scanEnd : Nat := 80

/-- Cycles of a visible line before which the display transfers pixels. -/
def transferEnd : Nat := 252

def postBoot : Lcd where
  control := 0x91
  status := 0
  scrollY := 0
  scrollX := 0
  line := 0
  lineCompare := 0
  dmaPage := 0xFF
  palette := 0xFC
  objectPalette0 := 0xFF
  objectPalette1 := 0xFF
  windowY := 0
  windowX := 0
  lineClock := 0
  statusLine := false

inductive Mode
  | hblank
  | vblank
  | scan
  | transfer
  deriving DecidableEq

def Mode.code : Mode → UInt8
  | hblank => 0
  | vblank => 1
  | scan => 2
  | transfer => 3

def enabled (v : Lcd) : Bool := v.control &&& 0x80 != 0

def mode (v : Lcd) : Mode :=
  if !v.enabled then .hblank
  else if visibleLines ≤ v.line then .vblank
  else if v.lineClock < scanEnd then .scan
  else if v.lineClock < transferEnd then .transfer
  else .hblank

def coincidence (v : Lcd) : Bool := v.enabled && v.line == v.lineCompare

/-- The OR of the status sources that are enabled at the beam's position. -/
def statusSignal (v : Lcd) : Bool :=
  (match v.mode with
    | .hblank => v.status &&& 0x08 != 0
    | .vblank => v.status &&& 0x10 != 0
    | .scan => v.status &&& 0x20 != 0
    | .transfer => false) ||
  (v.coincidence && v.status &&& 0x40 != 0)

/-- Samples the status signal, requesting an interrupt when it has risen. -/
def sampleStatus (v : Lcd) : Lcd × Requests :=
  let signal := v.statusSignal
  ({ v with statusLine := signal },
    if signal && !v.statusLine then Interrupt.stat.mask else 0)

/-- Moves the beam by at most a line, requesting an interrupt at the vertical blank. -/
def moveBeam (v : Lcd) (cycles : Nat) : Lcd × Requests :=
  let clock := v.lineClock + cycles
  if clock < lineCycles then ({ v with lineClock := clock }, 0)
  else
    let line := (v.line + 1) % totalLines
    ({ v with lineClock := clock - lineCycles, line := line },
      if line = visibleLines then Interrupt.vblank.mask else 0)

def advance (v : Lcd) (cycles : Nat) : Lcd × Requests :=
  let (v, blank) := v.moveBeam cycles
  let (v, stat) := v.sampleStatus
  (v, blank ||| stat)

/-- The longest piece of time between two samples of the status signal. -/
def samplePeriod : Nat := 4

def advances : Nat → Lcd → Requests → Lcd × Requests
  | 0, v, raised => (v, raised)
  | pieces + 1, v, raised =>
    let (v, now) := v.advance samplePeriod
    advances pieces v (raised ||| now)

/-- Advances in pieces of a sample period, the rest last. Nothing moves while off. -/
def step (v : Lcd) (cycles : Nat) : Lcd × Requests :=
  if !v.enabled then (v, 0)
  else
    let (v, raised) := advances (cycles / samplePeriod) v 0
    let rest := cycles % samplePeriod
    if rest = 0 then (v, raised)
    else
      let (v, now) := v.advance rest
      (v, raised ||| now)

def read (v : Lcd) (addr : UInt16) : UInt8 :=
  match addr with
  | 0xFF40 => v.control
  | 0xFF41 =>
    0x80 ||| (v.status &&& 0x78) ||| v.mode.code ||| (if v.coincidence then 0x04 else 0)
  | 0xFF42 => v.scrollY
  | 0xFF43 => v.scrollX
  | 0xFF44 => v.line
  | 0xFF45 => v.lineCompare
  | 0xFF46 => v.dmaPage
  | 0xFF47 => v.palette
  | 0xFF48 => v.objectPalette0
  | 0xFF49 => v.objectPalette1
  | 0xFF4A => v.windowY
  | 0xFF4B => v.windowX
  | _ => 0xFF

/-- Turning the display off puts the beam back to the start of the frame. -/
def writeControl (v : Lcd) (value : UInt8) : Lcd :=
  let written := { v with control := value }
  if v.enabled && !written.enabled then
    { written with line := 0, lineClock := 0, statusLine := false }
  else written

def write (v : Lcd) (addr : UInt16) (value : UInt8) : Lcd :=
  match addr with
  | 0xFF40 => v.writeControl value
  | 0xFF41 => { v with status := value &&& 0x78 }
  | 0xFF42 => { v with scrollY := value }
  | 0xFF43 => { v with scrollX := value }
  | 0xFF45 => { v with lineCompare := value }
  | 0xFF46 => { v with dmaPage := value }
  | 0xFF47 => { v with palette := value }
  | 0xFF48 => { v with objectPalette0 := value }
  | 0xFF49 => { v with objectPalette1 := value }
  | 0xFF4A => { v with windowY := value }
  | 0xFF4B => { v with windowX := value }
  | _ => v

instance : VideoUnit Lcd where
  step := step
  read := read
  write := write
  reset _ := postBoot

end Lcd

end Handheld
