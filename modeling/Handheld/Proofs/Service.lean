import Handheld.Proofs.Cartridge.Log
import Handheld.Proofs.Requests
import Mathlib.Tactic.IntervalCases

/-!
The service of interrupts. Requests are looked at between two steps: any of them ends a halt, and
the lowest one that is enabled is served if the master enable is set. The devices go on while it
is served, so that what they request before its bit is taken back is told from what they request
afterwards.
-/
namespace Handheld

namespace Interrupt

/-- The bit of an interrupt. -/
def number : Interrupt → Nat
  | vblank => 0
  | stat => 1
  | timer => 2
  | serial => 3
  | joypad => 4

theorem number_lt (i : Interrupt) : i.number < 5 := by cases i <;> decide

end Interrupt

open Interrupt

namespace Bus

variable {V A : Type} [VideoUnit V] [AudioUnit A]

/-- What the devices request while cycles pass. -/
def raisedWhile (b : Bus V A) (cycles : Nat) : Requests :=
  (b.timer.step cycles).2 ||| (VideoUnit.step b.video cycles).2

/-- Takes a bit of the requests back. -/
def withoutBit (b : Bus V A) (k : Nat) : Bus V A :=
  { b with requested := b.requested &&& ~~~(1 <<< UInt8.ofNat k) }

theorem requested_advance_raised (b : Bus V A) (n : Nat) :
    (b.advance n).requested = b.requested ||| b.raisedWhile n := UInt8.or_assoc _ _ _

end Bus

namespace Core

open Bus (Act)

variable {V A : Type} [VideoUnit V] [AudioUnit A]

section Unfold

attribute [local irreducible] Bus.advance Bus.read Bus.write

theorem regs_interruptScript (i : Interrupt) (r : Registers) (b : Bus V A) :
    ((interruptScript i r).play b).1 = { r with sp := r.sp - 2, pc := i.vector } := rfl

end Unfold

end Core

end Handheld
