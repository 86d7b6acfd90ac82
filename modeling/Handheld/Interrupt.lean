/-!
The five interrupt sources. Each has one bit in the request and enable registers and
one vector, and the source with the lowest bit is served first.
-/
namespace Handheld

inductive Interrupt
  | vblank
  | stat
  | timer
  | serial
  | joypad
  deriving DecidableEq

/-- A set of requests, one bit per source, as devices raise them. -/
abbrev Requests := UInt8

namespace Interrupt

def mask : Interrupt → Requests
  | vblank => 0x01
  | stat => 0x02
  | timer => 0x04
  | serial => 0x08
  | joypad => 0x10

def vector : Interrupt → UInt16
  | vblank => 0x40
  | stat => 0x48
  | timer => 0x50
  | serial => 0x58
  | joypad => 0x60

def byPriority : List Interrupt := [vblank, stat, timer, serial, joypad]

/-- The source served first among the pending ones. -/
def next? (pending : Requests) : Option Interrupt :=
  byPriority.find? fun i => pending &&& i.mask != 0

end Interrupt

end Handheld
