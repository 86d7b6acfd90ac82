/-!
The five registers of the cartridge clock and how they count. The registers are counters
of fixed width: a value past its usual range counts up to the width before it wraps, and
only the usual last value carries into the next register.
-/
namespace Handheld

/-- Bit 0 of `dayHigh` is bit 8 of the day, bit 6 halts the clock, and bit 7 tells that
the day has overflowed. -/
@[ext] structure ClockRegisters where
  seconds : UInt8
  minutes : UInt8
  hours : UInt8
  dayLow : UInt8
  dayHigh : UInt8
  deriving DecidableEq

inductive ClockField
  | seconds
  | minutes
  | hours
  | dayLow
  | dayHigh
  deriving DecidableEq

def ClockField.mask : ClockField → UInt8
  | seconds => 0x3F
  | minutes => 0x3F
  | hours => 0x1F
  | dayLow => 0xFF
  | dayHigh => 0xC1

def ClockField.all : List ClockField := [seconds, minutes, hours, dayLow, dayHigh]

namespace ClockRegisters

def cleared : ClockRegisters := ⟨0, 0, 0, 0, 0⟩

def get (r : ClockRegisters) : ClockField → UInt8
  | .seconds => r.seconds
  | .minutes => r.minutes
  | .hours => r.hours
  | .dayLow => r.dayLow
  | .dayHigh => r.dayHigh

/-- Stores the bits of a value that the register has. -/
def set (r : ClockRegisters) (field : ClockField) (v : UInt8) : ClockRegisters :=
  match field with
  | .seconds => { r with seconds := v &&& ClockField.seconds.mask }
  | .minutes => { r with minutes := v &&& ClockField.minutes.mask }
  | .hours => { r with hours := v &&& ClockField.hours.mask }
  | .dayLow => { r with dayLow := v &&& ClockField.dayLow.mask }
  | .dayHigh => { r with dayHigh := v &&& ClockField.dayHigh.mask }

def haltBit : UInt8 := 0x40

def carryBit : UInt8 := 0x80

def halted (r : ClockRegisters) : Bool := r.dayHigh &&& haltBit != 0

def carry (r : ClockRegisters) : Bool := r.dayHigh &&& carryBit != 0

def days (r : ClockRegisters) : Nat := r.dayLow.toNat + 256 * (r.dayHigh.toNat % 2)

def setDays (r : ClockRegisters) (days : Nat) : ClockRegisters :=
  { r with
    dayLow := UInt8.ofNat days
    dayHigh := (r.dayHigh &&& 0xFE) ||| UInt8.ofNat (days / 256 % 2) }

/-- The last day before the counter wraps. -/
def lastDay : Nat := 511

def dayTick (r : ClockRegisters) : ClockRegisters :=
  if lastDay ≤ r.days then
    let r := r.setDays 0
    { r with dayHigh := r.dayHigh ||| carryBit }
  else r.setDays (r.days + 1)

def hourTick (r : ClockRegisters) : ClockRegisters :=
  if r.hours = 23 then { r with hours := 0 }.dayTick
  else { r with hours := (r.hours + 1) &&& ClockField.hours.mask }

def minuteTick (r : ClockRegisters) : ClockRegisters :=
  if r.minutes = 59 then { r with minutes := 0 }.hourTick
  else { r with minutes := (r.minutes + 1) &&& ClockField.minutes.mask }

def secondTick (r : ClockRegisters) : ClockRegisters :=
  if r.seconds = 59 then { r with seconds := 0 }.minuteTick
  else { r with seconds := (r.seconds + 1) &&& ClockField.seconds.mask }

/-- Seconds until the next minute tick. From past the usual range the counter first runs
to its width. -/
def untilMinute (r : ClockRegisters) : Nat :=
  if r.seconds.toNat ≤ 59 then 60 - r.seconds.toNat else 64 - r.seconds.toNat + 60

theorem untilMinute_pos (r : ClockRegisters) : 0 < r.untilMinute := by
  unfold untilMinute
  split <;> omega

/-- `n` seconds of the clock, a minute at a time. -/
def advance (r : ClockRegisters) (n : Nat) : ClockRegisters :=
  if n < r.untilMinute then
    if n = 0 then r else { r with seconds := UInt8.ofNat ((r.seconds.toNat + n) % 64) }
  else { r with seconds := 0 }.minuteTick.advance (n - r.untilMinute)
  termination_by n
  decreasing_by
    have := r.untilMinute_pos
    omega

def toList (r : ClockRegisters) : List UInt8 := ClockField.all.map r.get

/-- The registers of five values, of which only the existing bits count. -/
def ofValue (value : ClockField → UInt8) : ClockRegisters :=
  ClockField.all.foldl (fun r field => r.set field (value field)) cleared

end ClockRegisters

end Handheld
