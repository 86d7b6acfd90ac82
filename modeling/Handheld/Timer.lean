import Handheld.Interrupt

/-!
The divider and the timer counter. The counter register is clocked by a falling edge of
one divider bit gated by the enable bit, so that a write to the divider or to the control
register can clock it the same way a cycle does. An overflow leaves the counter register
at zero for a few cycles before the modulo is copied into it and the interrupt raised.
-/
namespace Handheld

inductive Overflow
  | idle
  /-- The counter register reads zero until `delay` runs out, then takes `value`. -/
  | pending (value : UInt8) (delay : Nat)
  /-- The modulo was copied during the current cycle. -/
  | reloading
  deriving DecidableEq

@[ext] structure Timer where
  divider : UInt16
  counter : UInt8
  modulo : UInt8
  control : UInt8
  /-- The gated divider bit as the last cycle left it. -/
  lastSignal : Bool
  /-- The modulo before a write of this cycle, which an overflow of the same cycle takes. -/
  oldModulo : Option UInt8
  overflow : Overflow
  deriving DecidableEq

namespace Timer

def bootDivider : UInt16 := 0xABCC

/-- Cycles between an overflow and the cycle that copies the modulo. -/
def reloadDelay : Nat := 3

def cleared : Timer := ⟨0, 0, 0, 0, false, none, .idle⟩

def postBoot : Timer := { cleared with divider := bootDivider }

def watchedBit (control : UInt8) : Nat :=
  match control.toNat % 4 with
  | 0 => 9
  | 1 => 3
  | 2 => 5
  | _ => 7

def signalOf (divider : UInt16) (control : UInt8) : Bool :=
  control &&& 0x04 != 0 && divider.toNat.testBit (watchedBit control)

def signal (t : Timer) : Bool := signalOf t.divider t.control

/-- Counts one falling edge, scheduling a reload on overflow. -/
def increment (t : Timer) (oldModulo : Option UInt8) : Timer :=
  if t.counter = 0xFF then
    { t with counter := 0, overflow := .pending (oldModulo.getD t.modulo) reloadDelay }
  else { t with counter := t.counter + 1 }

/-- Settles the signal after a change, counting a fall from `before`. -/
def edge (t : Timer) (before : Bool) : Timer :=
  let now := t.signal
  let settled := { t with oldModulo := none, lastSignal := now }
  if before && !now then settled.increment t.oldModulo else settled

/-- One cycle of a due reload, and whether it raises the interrupt. -/
def tickReload (t : Timer) : Timer × Bool :=
  match t.overflow with
  | .idle => (t, false)
  | .reloading => ({ t with overflow := .idle }, false)
  | .pending value 0 => ({ t with counter := value, overflow := .reloading }, true)
  | .pending value (delay + 1) => ({ t with overflow := .pending value delay }, false)

/-- One cycle, and whether it raises the interrupt. -/
def tick (t : Timer) : Timer × Bool :=
  let (t, raised) := t.tickReload
  let before := t.lastSignal
  ({ t with divider := t.divider + 1 }.edge before, raised)

/-- `n` cycles, and whether one of them raises the interrupt. -/
def ticks : Nat → Timer → Bool → Timer × Bool
  | 0, t, raised => (t, raised)
  | n + 1, t, raised =>
    let (t, now) := t.tick
    ticks n t (raised || now)

def requests (raised : Bool) : Requests := if raised then Interrupt.timer.mask else 0

def step (t : Timer) (n : Nat) : Timer × Requests :=
  let (t, raised) := ticks n t false
  (t, requests raised)

/-- Clears the divider. This counts as a cycle for a due reload and may be an edge. -/
def clearDivider (t : Timer) : Timer × Requests :=
  let (t, raised) := t.tickReload
  let before := t.signal
  ({ t with divider := 0 }.edge before, requests raised)

/-- A write is lost in the cycle of a reload and cancels one that is still to come. -/
def writeCounter (t : Timer) (v : UInt8) : Timer :=
  match t.overflow with
  | .idle => { t with counter := v }
  | .reloading => t
  | .pending _ 0 => t
  | .pending _ (_ + 1) => { t with counter := v, overflow := .idle }

/-- A write also reaches the reload that is due or was made in this cycle. -/
def writeModulo (t : Timer) (v : UInt8) : Timer :=
  let written := { t with oldModulo := some t.modulo, modulo := v }
  match t.overflow with
  | .idle => written
  | .reloading => { written with counter := v }
  | .pending _ delay => { written with overflow := .pending v delay }

def writeControl (t : Timer) (v : UInt8) : Timer :=
  { t with control := v &&& 0x07 }.edge t.signal

def read (t : Timer) (addr : UInt16) : UInt8 :=
  match addr with
  | 0xFF04 => UInt8.ofNat (t.divider.toNat / 256)
  | 0xFF05 => t.counter
  | 0xFF06 => t.modulo
  | 0xFF07 => t.control ||| 0xF8
  | _ => 0xFF

def write (t : Timer) (addr : UInt16) (v : UInt8) : Timer × Requests :=
  match addr with
  | 0xFF04 => t.clearDivider
  | 0xFF05 => (t.writeCounter v, 0)
  | 0xFF06 => (t.writeModulo v, 0)
  | 0xFF07 => (t.writeControl v, 0)
  | _ => (t, 0)

end Timer

end Handheld
