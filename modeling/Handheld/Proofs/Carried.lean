import Handheld.Proofs.Activity
import Handheld.Proofs.Cartridge.Reachable
import Handheld.Proofs.Runs

/-!
The cartridge in the slot. Whatever a program does, it only writes to the cartridge and lets time
pass, so that the cartridge stays one that its own operations lead to from its ROM. This holds
after every frame and every run.
-/
namespace Handheld

namespace Bus

variable {V A : Type} {rom : ByteArray} {mode : ClockMode}

/-- The cartridge in the slot was made of a ROM and has only been operated since. -/
def Carries (rom : ByteArray) (mode : ClockMode) (b : Bus V A) : Prop :=
  ∃ c, b.slot = some c ∧ Cartridge.Reachable rom mode c

variable {b : Bus V A}

theorem Carries.of_slot (h : b.Carries rom mode) {b' : Bus V A} (hslot : b'.slot = b.slot) :
    b'.Carries rom mode := by
  obtain ⟨c, hc, hreachable⟩ := h
  exact ⟨c, hslot.trans hc, hreachable⟩

theorem Carries.writeSlot (h : b.Carries rom mode) (addr : UInt16) (v : UInt8) :
    (b.writeSlot addr v).Carries rom mode := by
  obtain ⟨c, hc, hreachable⟩ := h
  refine ⟨c.write addr v, ?_, hreachable.write addr v⟩
  rw [Bus.writeSlot, Slot.write, hc, Option.map_some]

variable [VideoUnit V] [AudioUnit A]

theorem Carries.advance (h : b.Carries rom mode) (cycles : Nat) :
    (b.advance cycles).Carries rom mode := by
  obtain ⟨c, hc, hreachable⟩ := h
  refine ⟨c.step cycles, ?_, hreachable.step cycles⟩
  change Slot.step b.slot cycles = some (c.step cycles)
  rw [Slot.step, hc, Option.map_some]

theorem Carries.write (h : b.Carries rom mode) (addr : UInt16) (v : UInt8) :
    (b.write addr v).Carries rom mode := by
  unfold Bus.write
  split
  · split
    · exact h.writeSlot addr v
    · exact h
  · split
    · exact h.writeSlot addr v
    · exact h
  · exact h
  · exact h
  · exact h
  · exact h
  · split
    · exact h
    · exact h
  · exact h.of_slot (writeVideo_keeps Bus.slot (fun _ _ _ => rfl) b addr v)
  · exact h
  · exact h

theorem Carries.perform (h : b.Carries rom mode) (a : Act) : (b.perform a).Carries rom mode := by
  cases a with
  | load addr v => exact h.advance accessCycles
  | write addr v => exact h.write addr v
  | pass n => exact h.advance n
  | clear i => exact h
  | button button pressed =>
    refine h.of_slot ?_
    change (b.setButton button pressed).slot = b.slot
    unfold setButton
    dsimp only
    split <;> rfl

theorem Carries.performAll (h : b.Carries rom mode) (acts : List Act) :
    (b.performAll acts).Carries rom mode := by
  induction acts generalizing b with
  | nil => exact h
  | cons a acts ih => exact ih (h.perform a)

end Bus

namespace Core

variable {V A : Type} [VideoUnit V] [AudioUnit A] {rom : ByteArray} {mode : ClockMode}
  {breakpoints : Breakpoints} {elapsed : Nat} {s : Core V A}

theorem carries_frame (h : s.bus.Carries rom mode) :
    (runFrameFrom breakpoints elapsed s).2.bus.Carries rom mode := by
  rw [bus_frame]
  exact h.performAll _

end Core

namespace Console

variable {rom : ByteArray} {mode : ClockMode} {c c' : Console}

/-- The console holds a cartridge that was made of a ROM and has only been operated since. -/
def Carries (rom : ByteArray) (mode : ClockMode) (c : Console) : Prop :=
  c.core.bus.Carries rom mode

theorem Carries.turn (h : c.Carries rom mode) {stopOnBreak : Bool} {done done' : Summary}
    (hturn : turn stopOnBreak done c = (.ok done', c')) : c'.Carries rom mode := by
  have hframe : (c.core.runFrame c.breakpoints).2.bus.Carries rom mode := Core.carries_frame h
  obtain ⟨core, -, hrun, -, rfl⟩ | ⟨pc, core, -, hrun, -, -, rfl⟩ | ⟨pc, core, -, hrun, -, -, rfl⟩ |
    ⟨pc, -, -, rfl⟩ := turn_cases hturn
  · rw [hrun] at hframe
    exact hframe
  · rw [hrun] at hframe
    exact hframe
  · rw [hrun] at hframe
    exact hframe
  · exact h

theorem Carries.runFrom (h : c.Carries rom mode) {frames : Nat} {stopOnBreak : Bool}
    {done done' : Summary} (hrun : runFrom frames stopOnBreak done c = (.ok done', c')) :
    c'.Carries rom mode := by
  fun_induction Console.runFrom frames stopOnBreak done c with
  | case1 done c hover =>
    obtain ⟨-, rfl⟩ := Prod.mk.inj hrun
    exact h
  | case2 done c hgo e d hturn => cases hrun
  | case3 done c hgo next d hturn ih => exact ih (h.turn hturn) hrun

end Console

namespace Session

variable {rom : ByteArray} {mode : ClockMode} {s s' : Session}

/-- Runs in a row leave the save path and a cartridge that has only been operated. -/
theorem carries_runAll {runs : List (Nat × Bool)} {summaries : List Summary}
    (h : s.console.Carries rom mode) (hruns : s.runAll runs = (.ok summaries, s')) :
    s'.console.Carries rom mode ∧ s'.savePath = s.savePath := by
  induction runs generalizing s summaries with
  | nil =>
    obtain ⟨-, rfl⟩ := Prod.mk.inj hruns
    exact ⟨h, rfl⟩
  | cons run rest ih =>
    obtain ⟨summary, between, following, hrun, hrest, -⟩ := runAll_cons_eq_ok hruns
    obtain ⟨hfirst, hpath⟩ := run_eq_ok hrun
    obtain ⟨hlast, hpath'⟩ := ih (h.runFrom hfirst) hrest
    exact ⟨hlast, hpath'.trans hpath⟩

end Session

end Handheld
