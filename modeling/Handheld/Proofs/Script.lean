import Handheld.Bus
import Handheld.Registers

/-!
The bus activity of an instruction as data. A script lists accesses and delays in the order
in which they are charged and ends in the registers that are left. Playing a script on a
bus answers its reads and performs its writes; the cycles that pass are those of the bytes
moved and of the delays.
-/
namespace Handheld

/-- What follows an access may depend on the byte that the bus answers. -/
inductive Script
  | done (r : Registers)
  /-- Takes a byte of the instruction itself. -/
  | fetch (addr : UInt16) (next : UInt8 → Script)
  | read (addr : UInt16) (next : UInt8 → Script)
  | write (addr : UInt16) (v : UInt8) (next : Script)
  | wait (cycles : Nat) (next : Script)

/-- The bytes of the instruction that are taken, the bytes of data that are read or written,
and the cycles of the delays between them. -/
@[ext] structure Usage where
  fetched : Nat
  moved : Nat
  waited : Nat
  deriving DecidableEq

/-- Every byte takes the cycles of one access. -/
def Usage.cycles (u : Usage) : Nat := Bus.accessCycles * (u.fetched + u.moved) + u.waited

namespace Script

variable {V A : Type} [VideoUnit V] [AudioUnit A]

/-- The registers and the bus after a script. Each byte is the one that the bus returns at
the moment of the access. -/
def play : Script → Bus V A → Registers × Bus V A
  | done r, b => (r, b)
  | fetch addr next, b => (next (b.read addr)).play (b.advance Bus.accessCycles)
  | read addr next, b => (next (b.read addr)).play (b.advance Bus.accessCycles)
  | write addr v next, b => next.play ((b.write addr v).advance Bus.accessCycles)
  | wait n next, b => next.play (b.advance n)

/-- What a script uses when it is played. -/
def usage : Script → Bus V A → Usage
  | done _, _ => ⟨0, 0, 0⟩
  | fetch addr next, b =>
    let u := (next (b.read addr)).usage (b.advance Bus.accessCycles)
    { u with fetched := u.fetched + 1 }
  | read addr next, b =>
    let u := (next (b.read addr)).usage (b.advance Bus.accessCycles)
    { u with moved := u.moved + 1 }
  | write addr v next, b =>
    let u := next.usage ((b.write addr v).advance Bus.accessCycles)
    { u with moved := u.moved + 1 }
  | wait n next, b =>
    let u := next.usage (b.advance n)
    { u with waited := u.waited + n }

/-- The cycles that pass are those of what is used. -/
theorem cycles_play (script : Script) (b : Bus V A) :
    (script.play b).2.cycles = b.cycles + (script.usage b).cycles := by
  induction script generalizing b with
  | done r => rfl
  | fetch addr next ih =>
    have h := ih (b.read addr) (b.advance Bus.accessCycles)
    simp only [play, usage, Usage.cycles, Bus.accessCycles, Bus.cycles_advance] at h ⊢
    omega
  | read addr next ih =>
    have h := ih (b.read addr) (b.advance Bus.accessCycles)
    simp only [play, usage, Usage.cycles, Bus.accessCycles, Bus.cycles_advance] at h ⊢
    omega
  | write addr v next ih =>
    have h := ih ((b.write addr v).advance Bus.accessCycles)
    simp only [play, usage, Usage.cycles, Bus.accessCycles, Bus.cycles_advance,
      Bus.cycles_write] at h ⊢
    omega
  | wait n next ih =>
    have h := ih (b.advance n)
    simp only [play, usage, Usage.cycles, Bus.cycles_advance] at h ⊢
    omega

end Script

end Handheld
