/-!
The clock of the host, in seconds. It is a sequence of readings and a count of how many
have been taken, so that a run is a function of what the clock answers.
-/
namespace Handheld

structure HostClock where
  /-- The answer to the poll of each number. -/
  reading : Nat → UInt64
  polls : Nat

namespace HostClock

def fixed (seconds : UInt64) : HostClock := ⟨fun _ => seconds, 0⟩

def now (h : HostClock) : UInt64 := h.reading h.polls

def polled (h : HostClock) : HostClock := { h with polls := h.polls + 1 }

end HostClock

end Handheld
