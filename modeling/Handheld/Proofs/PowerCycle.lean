import Handheld.Proofs.BreakpointMap
import Handheld.Proofs.OneClock
import Handheld.Proofs.SaveLoading

/-!
Power cycles. Whatever a host has done to a console and to its parts, a reset leaves nothing of it
but the cartridge and the breakpoints, and so does the insertion of a cartridge: the console is
then a new one that they have been put into. What it answers from then on does not depend on
what it was used for before.
-/
namespace Handheld

namespace Bus

variable {V A : Type} [VideoUnit V] [AudioUnit A]

/-- No act takes the sound unit away or brings one. -/
theorem isSome_audio_perform (b : Bus V A) (a : Act) :
    (b.perform a).audio.isSome = b.audio.isSome := by
  rw [audio_perform, Option.isSome_map]

theorem isSome_audio_performAll (b : Bus V A) (acts : List Act) :
    (b.performAll acts).audio.isSome = b.audio.isSome := by
  induction acts generalizing b with
  | nil => rfl
  | cons a acts ih => rw [performAll, ih, isSome_audio_perform]

@[simp] theorem isSome_audio_advance (b : Bus V A) (n : Nat) :
    (b.advance n).audio.isSome = b.audio.isSome := b.isSome_audio_perform (.pass n)

@[simp] theorem isSome_audio_write (b : Bus V A) (addr : UInt16) (v : UInt8) :
    (b.write addr v).audio.isSome = b.audio.isSome := b.isSome_audio_perform (.write addr v)

theorem isSome_audio_reset (b : Bus V A) : b.reset.audio.isSome = b.audio.isSome :=
  Option.isSome_map

@[simp] theorem isSome_audio_setButton (b : Bus V A) (button : Button) (pressed : Bool) :
    (b.setButton button pressed).audio.isSome = b.audio.isSome :=
  b.isSome_audio_perform (.button button pressed)

end Bus

namespace Console

/-- The parts of a console that a host may put a value into. -/
inductive Part
  | cpu (cpu : Cpu)
  | slot (slot : Slot)
  | requested (requests : Requests)
  | enabled (requests : Requests)
  | timer (timer : Timer)
  | joypad (joypad : Joypad)
  | display (display : Lcd)
  | sound (sound : Sound)
  | cycles (cycles : Nat)

/-- What a host asks of a console, of its processor or of its bus. -/
inductive Query
  | step
  | runFrame
  /-- A frame of the processor, whether or not the console is paused. -/
  | runCore
  | resume
  /-- The next instruction is to run even if it is a breakpoint. -/
  | stepOver
  | button (button : Button) (pressed : Bool)
  | read (addr : UInt16)
  | write (addr : UInt16) (v : UInt8)
  | load (addr : UInt16)
  | loadWord (addr : UInt16)
  | store (addr : UInt16) (v : UInt8)
  | storeWord (addr : UInt16) (v : UInt16)
  | pass (cycles : Nat)
  | assign (part : Part)
  | edit (edit : Breakpoints.Edit)
  | setHost (host : HostClock)
  | save
  | loadSave (data : ByteArray)
  | insert (cartridge : Cartridge)
  | insertRom (rom : ByteArray) (host : HostClock)
  | resetBus
  | reset

/-- What a console answers. -/
inductive Answer
  | done
  | stepped (result : Except CpuError Nat)
  | frame (result : Except CpuError FrameOutcome)
  | stopped (result : Except CpuError (Option UInt16))
  | byte (v : UInt8)
  | word (v : UInt16)
  | bytes (data : ByteArray)
  | loaded (result : Except SaveError Unit)
  | reply (reply : Breakpoints.Reply)

def withBus (c : Console) (bus : Bus Lcd Sound) : Console :=
  { c with core := { c.core with bus := bus } }

def assign (c : Console) : Part → Console
  | .cpu cpu => { c with core := { c.core with cpu := cpu } }
  | .slot slot => c.withBus { c.core.bus with slot := slot }
  | .requested requests => c.withBus { c.core.bus with requested := requests }
  | .enabled requests => c.withBus { c.core.bus with enabled := requests }
  | .timer timer => c.withBus { c.core.bus with timer := timer }
  | .joypad joypad => c.withBus { c.core.bus with joypad := joypad }
  | .display display => c.withBus { c.core.bus with video := display }
  | .sound sound => c.withBus { c.core.bus with audio := some sound }
  | .cycles cycles => c.withBus { c.core.bus with cycles := cycles }

def serve (c : Console) : Query → Answer × Console
  | .step => (.stepped c.step.1, c.step.2)
  | .runFrame => (.frame c.runFrame.1, c.runFrame.2)
  | .runCore =>
    (.stopped (c.core.runFrame c.breakpoints).1,
      { c with core := (c.core.runFrame c.breakpoints).2 })
  | .resume => (.done, c.resume)
  | .stepOver => (.done, { c with core := c.core.setSkip true })
  | .button button pressed => (.done, c.setButton button pressed)
  | .read addr => (.byte (c.core.bus.read addr), c)
  | .write addr v => (.done, c.withBus (c.core.bus.write addr v))
  | .load addr => (.byte (c.core.bus.load addr).1, c.withBus (c.core.bus.load addr).2)
  | .loadWord addr =>
    (.word (c.core.bus.loadWord addr).1, c.withBus (c.core.bus.loadWord addr).2)
  | .store addr v => (.done, c.withBus (c.core.bus.store addr v))
  | .storeWord addr v => (.done, c.withBus (c.core.bus.storeWord addr v))
  | .pass cycles => (.done, c.withBus (c.core.bus.advance cycles))
  | .assign part => (.done, c.assign part)
  | .edit edit =>
    (.reply (c.breakpoints.edit edit).2, { c with breakpoints := (c.breakpoints.edit edit).1 })
  | .setHost host => (.done, c.setHost host)
  | .save => (.bytes c.save, c)
  | .loadSave data =>
    match c.load data with
    | .ok d => (.loaded (.ok ()), d)
    | .error e => (.loaded (.error e), c)
  | .insert cartridge => (.done, c.insert cartridge)
  | .insertRom rom host => (.done, c.insertRom rom host)
  | .resetBus => (.done, c.withBus c.core.bus.reset)
  | .reset => (.done, c.reset)

/-- The answers to some queries in a row, and the console after them. -/
def serveAll (c : Console) : List Query → List Answer × Console
  | [] => ([], c)
  | q :: rest =>
    let (answer, next) := c.serve q
    let (answers, last) := next.serveAll rest
    (answer :: answers, last)

/-- A console with a cartridge slot and breakpoints put in place of its own. -/
def equip (c : Console) (slot : Slot) (breakpoints : Breakpoints) : Console :=
  { c.withBus { c.core.bus with slot := slot } with breakpoints := breakpoints }

/-- What a console keeps of its making: the mode of the clocks and the sound unit. -/
structure Made (mode : ClockMode) (c : Console) : Prop where
  clockMode : c.clockMode = mode
  hasSound : c.core.bus.audio.isSome = true

variable {mode : ClockMode} {c d : Console}

theorem made_powerOn (mode : ClockMode) : (powerOn mode).Made mode := ⟨rfl, rfl⟩

theorem Made.withBus (h : c.Made mode) {bus : Bus Lcd Sound}
    (hsound : bus.audio.isSome = c.core.bus.audio.isSome) : (c.withBus bus).Made mode :=
  ⟨h.clockMode, hsound.trans h.hasSound⟩

theorem Made.step (h : c.Made mode) : c.step.2.Made mode := by
  refine ⟨h.clockMode, ?_⟩
  change (Exec.step c.core).2.bus.audio.isSome = true
  rw [Core.bus_step, Bus.isSome_audio_performAll]
  exact h.hasSound

theorem Made.frame (h : c.Made mode) (breakpoints : Breakpoints) :
    (c.core.runFrame breakpoints).2.bus.audio.isSome = true := by
  rw [Core.runFrame, Core.bus_frame, Bus.isSome_audio_performAll]
  exact h.hasSound

theorem Made.runFrame (h : c.Made mode) : c.runFrame.2.Made mode := by
  have hframe := h.frame c.breakpoints
  unfold Console.runFrame
  cases c.pausedAt with
  | some pc => exact h
  | none =>
    dsimp only
    split
    all_goals
      next hrun =>
        rw [hrun] at hframe
        exact ⟨h.clockMode, hframe⟩

theorem Made.load (h : c.Made mode) {data : ByteArray} (hload : c.load data = .ok d) :
    d.Made mode := by
  rcases eq_or_holding_of_load hload with rfl | ⟨cartridge, rfl⟩
  · exact h
  · exact ⟨h.clockMode, h.hasSound⟩

theorem Made.reset (h : c.Made mode) : c.reset.Made mode :=
  ⟨h.clockMode, c.core.bus.isSome_audio_reset.trans h.hasSound⟩

theorem Made.insert (h : c.Made mode) (cartridge : Cartridge) : (c.insert cartridge).Made mode :=
  Made.reset (c := c.withBus (c.core.bus.insert cartridge)) (h.withBus rfl)

theorem Made.serve (h : c.Made mode) (q : Query) : (c.serve q).2.Made mode := by
  cases q with
  | step => exact h.step
  | runFrame => exact h.runFrame
  | runCore => exact ⟨h.clockMode, h.frame c.breakpoints⟩
  | resume =>
    unfold Console.serve Console.resume
    cases c.pausedAt <;> exact ⟨h.clockMode, h.hasSound⟩
  | stepOver => exact ⟨h.clockMode, h.hasSound⟩
  | button button pressed => exact h.withBus (Bus.isSome_audio_setButton _ _ _)
  | read addr => exact h
  | write addr v => exact h.withBus (Bus.isSome_audio_write _ _ _)
  | load addr => exact h.withBus (Bus.isSome_audio_advance _ _)
  | loadWord addr => exact h.withBus (by simp [Bus.loadWord, Bus.load])
  | store addr v => exact h.withBus (by simp [Bus.store])
  | storeWord addr v => exact h.withBus (by simp [Bus.storeWord, Bus.store])
  | pass cycles => exact h.withBus (Bus.isSome_audio_advance _ _)
  | assign part =>
    cases part with
    | sound sound => exact ⟨h.clockMode, rfl⟩
    | _ => exact ⟨h.clockMode, h.hasSound⟩
  | edit edit => exact ⟨h.clockMode, h.hasSound⟩
  | setHost host =>
    unfold Console.serve Console.setHost
    cases c.cartridge? <;> exact ⟨h.clockMode, h.hasSound⟩
  | save => exact h
  | loadSave data =>
    dsimp only [Console.serve]
    cases hload : c.load data with
    | error e => exact h
    | ok d => exact h.load hload
  | insert cartridge => exact h.insert cartridge
  | insertRom rom host => exact h.insert _
  | resetBus => exact h.withBus (Bus.isSome_audio_reset _)
  | reset => exact h.reset

theorem Made.serveAll (h : c.Made mode) (queries : List Query) :
    (c.serveAll queries).2.Made mode := by
  induction queries generalizing c with
  | nil => exact h
  | cons q rest ih => exact ih (h.serve q)

/-- A reset makes a new console of a console, but for the cartridge and the breakpoints. -/
theorem Made.reset_eq (h : c.Made mode) :
    c.reset = (powerOn mode).equip c.cartridge? c.breakpoints := by
  obtain ⟨sound, hsound⟩ := Option.isSome_iff_exists.mp h.hasSound
  unfold Console.reset Bus.reset
  rw [hsound, h.clockMode]
  rfl

/-- What two consoles have been used for can be told apart after a reset by the cartridge and the
breakpoints alone. -/
theorem Made.reset_eq_reset_iff (h : c.Made mode) (h' : d.Made mode) :
    c.reset = d.reset ↔ c.cartridge? = d.cartridge? ∧ c.breakpoints = d.breakpoints := by
  constructor
  · intro heq
    have hcartridge : c.reset.cartridge? = d.reset.cartridge? := congrArg cartridge? heq
    have hbreakpoints : c.reset.breakpoints = d.reset.breakpoints := congrArg breakpoints heq
    exact ⟨hcartridge, hbreakpoints⟩
  · rintro ⟨hcartridge, hbreakpoints⟩
    rw [h.reset_eq, h'.reset_eq, hcartridge, hbreakpoints]

theorem Made.insert_eq (h : c.Made mode) (cartridge : Cartridge) :
    c.insert cartridge = (powerOn mode).equip (some cartridge) c.breakpoints :=
  Made.reset_eq (c := c.withBus (c.core.bus.insert cartridge)) (h.withBus rfl)

/-- A reset forgets everything but the cartridge and the breakpoints, and the insertion of a
cartridge forgets the one before too. Whatever has been asked of a console before, it is then in
every field the new console of its clock mode that the cartridge and the breakpoints have been put
into. The save that the cartridge would leave is the same, and so are the answers to all queries
that follow and the consoles that these lead to. Two pasts can be told apart after a reset by the
cartridge and the breakpoints alone. -/
theorem power_cycle_forgets (mode : ClockMode) (before : List Query) (cartridge : Cartridge) :
    let c := ((powerOn mode).serveAll before).2
    let fresh := (powerOn mode).equip c.cartridge? c.breakpoints
    let inserted := (powerOn mode).equip (some cartridge) c.breakpoints
    (c.reset = fresh ∧ c.reset.cartridge? = c.cartridge? ∧ c.reset.breakpoints = c.breakpoints ∧
      c.reset.save = c.save ∧ ∀ later, c.reset.serveAll later = fresh.serveAll later) ∧
    (c.insert cartridge = inserted ∧ (c.insert cartridge).cartridge? = some cartridge ∧
      (c.insert cartridge).breakpoints = c.breakpoints ∧
      (c.insert cartridge).save = cartridge.save ∧
      ∀ later, (c.insert cartridge).serveAll later = inserted.serveAll later) ∧
    ∀ otherwise, let d := ((powerOn mode).serveAll otherwise).2
      c.reset = d.reset ↔ c.cartridge? = d.cartridge? ∧ c.breakpoints = d.breakpoints := by
  intro c fresh inserted
  have hmade : c.Made mode := (made_powerOn mode).serveAll before
  have hreset : c.reset = fresh := hmade.reset_eq
  have hinsert : c.insert cartridge = inserted := hmade.insert_eq cartridge
  refine ⟨⟨hreset, rfl, rfl, rfl, ?_⟩, ⟨hinsert, rfl, rfl, rfl, ?_⟩, ?_⟩
  · intro later
    rw [hreset]
  · intro later
    rw [hinsert]
  · intro otherwise
    exact hmade.reset_eq_reset_iff ((made_powerOn mode).serveAll otherwise)

end Console

end Handheld
