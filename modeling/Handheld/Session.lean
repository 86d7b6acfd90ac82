import Handheld.Console
import Handheld.FileSystem
import Handheld.RunConfig

/-!
Sessions: a console with a ROM inserted and its battery save restored. A run goes on for a
number of complete frames and notes every breakpoint it meets; afterwards the save can be
written back. A run always ends: between two stops at breakpoints time passes.
-/
namespace Handheld

structure Hit where
  pc : UInt16
  state : String
  deriving DecidableEq

structure Summary where
  frames : Nat
  hits : Array Hit
  stoppedEarly : Bool
  deriving DecidableEq

def Summary.start : Summary := ⟨0, #[], false⟩

structure Session where
  console : Console
  /-- Where the battery save is kept, if the cartridge has a battery. -/
  savePath : Option String

inductive SessionError
  | readRom (path : String) (cause : FileError)
  | readSave (path : String) (cause : FileError)
  | misfit (path : String) (cause : SaveError)
  | cpu (cause : CpuError)
  | writeSave (path : String) (cause : FileError)
  deriving DecidableEq

namespace SessionError

def message : SessionError → String
  | readRom path _ => s!"failed to read ROM {path}"
  | readSave path _ => s!"failed to read save {path}"
  | misfit path _ => s!"save {path} does not fit this cartridge"
  | cpu cause => cause.message
  | writeSave path _ => s!"failed to write save {path}"

/-- The message of the error that led to this one. -/
def cause? : SessionError → Option String
  | readRom _ cause => some cause.message
  | readSave _ cause => some cause.message
  | misfit _ cause => some cause.message
  | cpu _ => none
  | writeSave _ cause => some cause.message

/-- The messages from the outermost to the first cause. -/
def chain (e : SessionError) : List String := e.message :: e.cause?.toList

end SessionError

namespace Console

/-- One go at a frame. A breakpoint is noted; unless the run stops there, it is left
again. -/
def turn (stopOnBreak : Bool) (done : Summary) (c : Console) :
    Except CpuError Summary × Console :=
  match c.runFrame with
  | (.error e, c) => (.error e, c)
  | (.ok .complete, c) => (.ok { done with frames := done.frames + 1 }, c)
  | (.ok (.breakpoint pc), c) =>
    let done := { done with hits := done.hits.push ⟨pc, c.core.cpu.debugText⟩ }
    if stopOnBreak then (.ok { done with stoppedEarly := true }, c) else (.ok done, c.resume)
  | (.ok (.paused _), c) => (.ok done, c.resume)

def isOver (frames : Nat) (done : Summary) : Bool :=
  done.stoppedEarly || decide (frames ≤ done.frames)

def framesLeft (frames : Nat) (done : Summary) : Nat :=
  if done.stoppedEarly then 0 else frames - done.frames

def cyclesLeft (c : Console) : Nat := cyclesPerFrame - c.core.cpu.frameCycles

/-- How many more goes may pass before the processor takes a step. -/
def delay (c : Console) : Nat :=
  (if c.core.cpu.skipBreakpoint then 0 else 2) + (if c.pausedAt.isSome then 1 else 0)

/-- Leaving a pause brings the next step of the processor nearer. -/
theorem delay_resume_lt {c : Console} {pc : UInt16} (h : c.pausedAt = some pc) :
    c.resume.delay < c.delay := by
  simp only [resume, h, delay, Core.setSkip]
  cases c.core.cpu.skipBreakpoint <;> simp

/-- After a stop at a breakpoint that is left again, either time has passed or the
instruction at the breakpoint is to be run next. -/
theorem lex_resume {c : Console} {core : Core Lcd Sound} {pc : UInt16}
    (hpaused : c.pausedAt = none) (h : c.core.runFrame c.breakpoints = (.ok (some pc), core)) :
    Prod.Lex (· < ·) (· < ·)
      (({ c with core := core, pausedAt := some pc } : Console).resume.cyclesLeft,
        ({ c with core := core, pausedAt := some pc } : Console).resume.delay)
      (c.cyclesLeft, c.delay) := by
  obtain ⟨hlt, hle, hskip⟩ := Core.frameCycles_of_breakpoint h
  by_cases hsame : c.core.cpu.frameCycles < core.cpu.frameCycles
  · apply Prod.Lex.left
    simp only [cyclesLeft, resume, Core.setSkip]
    omega
  · have hnot : c.core.cpu.skipBreakpoint = false := by
      cases hs : c.core.cpu.skipBreakpoint
      · rfl
      · exact absurd (hskip hs) hsame
    have heq : core.cpu.frameCycles = c.core.cpu.frameCycles := by omega
    simp only [cyclesLeft, resume, Core.setSkip, heq]
    apply Prod.Lex.right
    simp [delay, hnot, hpaused]

/-- Every go brings the end of the run nearer. -/
theorem turn_decreases {frames : Nat} {stopOnBreak : Bool} {done done' : Summary}
    {c c' : Console} (hgo : isOver frames done = false)
    (h : turn stopOnBreak done c = (.ok done', c')) :
    Prod.Lex (· < ·) (Prod.Lex (· < ·) (· < ·))
      (framesLeft frames done', c'.cyclesLeft, c'.delay)
      (framesLeft frames done, c.cyclesLeft, c.delay) := by
  obtain ⟨hearly, hframes⟩ : done.stoppedEarly = false ∧ done.frames < frames := by
    simpa [isOver] using hgo
  cases hpaused : c.pausedAt with
  | some pc =>
    simp only [turn, runFrame, hpaused, Prod.mk.injEq, Except.ok.injEq] at h
    obtain ⟨rfl, rfl⟩ := h
    have hcycles : c.resume.cyclesLeft = c.cyclesLeft := by
      simp [cyclesLeft, resume, hpaused, Core.setSkip]
    rw [hcycles]
    exact Prod.Lex.right _ (Prod.Lex.right _ (delay_resume_lt hpaused))
  | none =>
    cases hrun : c.core.runFrame c.breakpoints with
    | mk outcome core =>
      cases outcome with
      | error e => simp [turn, runFrame, hpaused, hrun] at h
      | ok stop =>
        cases stop with
        | none =>
          simp only [turn, runFrame, hpaused, hrun, Prod.mk.injEq, Except.ok.injEq] at h
          obtain ⟨rfl, rfl⟩ := h
          apply Prod.Lex.left
          simp only [framesLeft, hearly, Bool.false_eq_true, if_false]
          omega
        | some pc =>
          cases hstop : stopOnBreak with
          | true =>
            simp only [turn, runFrame, hpaused, hrun, hstop, if_true, Prod.mk.injEq,
              Except.ok.injEq] at h
            obtain ⟨rfl, rfl⟩ := h
            apply Prod.Lex.left
            simp only [framesLeft, hearly, if_true, Bool.false_eq_true, if_false]
            omega
          | false =>
            simp only [turn, runFrame, hpaused, hrun, hstop, Bool.false_eq_true, if_false,
              Prod.mk.injEq, Except.ok.injEq] at h
            obtain ⟨rfl, rfl⟩ := h
            exact Prod.Lex.right _ (lex_resume hpaused hrun)

def runFrom (frames : Nat) (stopOnBreak : Bool) (done : Summary) (c : Console) :
    Except CpuError Summary × Console :=
  if _hgo : isOver frames done = true then (.ok done, c)
  else
    match _h : turn stopOnBreak done c with
    | (.error e, c) => (.error e, c)
    | (.ok done, c) => runFrom frames stopOnBreak done c
  termination_by (framesLeft frames done, c.cyclesLeft, c.delay)
  decreasing_by exact turn_decreases (by simpa using _hgo) _h

/-- Runs a number of complete frames. -/
def run (frames : Nat) (stopOnBreak : Bool) (c : Console) : Except CpuError Summary × Console :=
  runFrom frames stopOnBreak .start c

end Console

namespace Session

/-- Runs a number of complete frames. Breakpoints are noted and, unless the run stops at
them, left again. -/
def run (frames : Nat) (stopOnBreak : Bool) (s : Session) : Except SessionError Summary × Session :=
  let (result, console) := s.console.run frames stopOnBreak
  (result.mapError .cpu, { s with console := console })

variable {m : Type → Type} [Monad m] [FileSystem m]

/-- A file of the session, whose failure is told as the session's. -/
def readFile (path : String) (failure : FileError → SessionError) :
    ExceptT SessionError m ByteArray := do
  match ← (FileSystem.read path : m _) with
  | .ok content => return content
  | .error e => throw (failure e)

/-- A console with a ROM inserted and the breakpoints of the settings. -/
def consoleOf (cfg : RunConfig) (rom : ByteArray) (host : HostClock) : Console :=
  let c := (Console.powerOn cfg.clockMode).insertRom rom host
  { c with breakpoints := c.breakpoints.addAll cfg.breakpoints }

/-- Where the save of a ROM is kept: only cartridges with a battery have one. -/
def savePathOf (cfg : RunConfig) (saveOverride : Option String) (romPath : String)
    (rom : ByteArray) : Option String :=
  if (Header.parse rom).battery then some (saveOverride.getD (cfg.savePath romPath)) else none

def restore (c : Console) (path : String) : ExceptT SessionError m Console := do
  if ← (FileSystem.isPresent path : m Bool) then
    let data ← readFile path (.readSave path)
    match c.load data with
    | .ok c => return c
    | .error e => throw (.misfit path e)
  else return c

/-- Builds a console around a ROM and restores its save. A path given for the save goes
before the one of the settings. -/
def openRom (romPath : String) (cfg : RunConfig) (saveOverride : Option String)
    (host : HostClock) : ExceptT SessionError m Session := do
  let rom ← readFile romPath (.readRom romPath)
  let console := consoleOf cfg rom host
  match savePathOf cfg saveOverride romPath rom with
  | none => return ⟨console, none⟩
  | some path => return ⟨← restore console path, some path⟩

/-- Writes the battery save back. Without a battery or without anything to save, no file
is touched. -/
def writeSave (s : Session) : ExceptT SessionError m Unit := do
  match s.savePath with
  | none => return
  | some path =>
    let data := s.console.save
    if data.size = 0 then return
    match ← (FileSystem.write path data : m _) with
    | .ok _ => return
    | .error e => throw (.writeSave path e)

end Session

end Handheld
