import Handheld.Options
import Handheld.Session

/-!
The program: it takes the command line and the configuration, opens a session, runs it,
reports what happened and writes the battery save back. It is written over any file system
and any way of running a session, so that it can be run on files as well as on values.
-/
namespace Handheld

/-- What the program leaves to its caller. -/
structure Outcome where
  code : UInt8
  stdout : String
  stderr : String
  deriving DecidableEq

namespace UsageError

def message : UsageError → String
  | unknownArgument => "unexpected argument"
  | invalidValue => "missing or unknown value"
  | valueValidation => "invalid value"
  | argumentConflict => "an option was given more than once"
  | tooManyValues => "a switch takes no value"
  | missingRequiredArgument => "no ROM was given"
  | helpRequested => ""

end UsageError

namespace Program

def usage : String :=
  "Usage: [OPTIONS] <ROM>\n\n" ++
  "  --frames <N>           number of frames to run\n" ++
  "  --break <ADDR>         breakpoint address in hex, may be repeated\n" ++
  "  --rtc <wall|emulated>  how the cartridge clock advances\n" ++
  "  --save <PATH>          battery save path\n" ++
  "  --config <PATH>        TOML file with run settings\n" ++
  "  --stop-on-break        stop at the first breakpoint hit\n" ++
  "  --debug                print the final CPU state\n" ++
  "  -h, --help             print this help\n"

def refuse : UsageError → Outcome
  | .helpRequested => ⟨0, usage, ""⟩
  | e => ⟨2, "", s!"error: {e.message}\n\n{usage}"⟩

def errorText (e : SessionError) : String :=
  match e.cause? with
  | some cause => s!"Error: {e.message}\n\nCaused by:\n    {cause}\n"
  | none => s!"Error: {e.message}\n"

def fail (stdout : String) (e : SessionError) : Outcome := ⟨1, stdout, errorText e⟩

/-- A line for each breakpoint, one on the frames, and one on the processor if wanted. -/
def report (debug : Bool) (frames : Nat) (done : Summary) (s : Session) : String :=
  let hits := done.hits.toList.map fun hit => s!"break {Text.hexWord hit.pc}: {hit.state}\n"
  let ran := s!"Ran {done.frames} of {frames} frames ({done.hits.size} breakpoint hits)\n"
  let state := if debug then s!"{s.console.core.cpu.debugText}\n" else ""
  String.join hits ++ ran ++ state

variable {m : Type → Type} [Monad m] [FileSystem m]

/-- The settings of the command line and the configuration file that it names. -/
def settings (o : Options) : m RunConfig := do
  match o.config with
  | none => return o.merge .standard
  | some path =>
    let content ← FileSystem.read path
    return o.merge (.ofFile content.toOption)

/-- A way of running a session for a number of frames. -/
abbrev Runner (m : Type → Type) :=
  Nat → Bool → Session → m (Except SessionError Summary × Session)

/-- Runs a session at once, whatever the host's clock does meanwhile. -/
def runAtOnce : Runner m := fun frames stopOnBreak s => return s.run frames stopOnBreak

/-- The report comes before the save is written, and stays if that fails. -/
def finish (debug : Bool) (frames : Nat) (done : Summary) (s : Session) : m Outcome := do
  let stdout := report debug frames done s
  match ← (s.writeSave : ExceptT SessionError m Unit).run with
  | .ok _ => return ⟨0, stdout, ""⟩
  | .error e => return fail stdout e

/-- Runs the program with settings that have been put together from its options. -/
def runWith (runner : Runner m) (host : HostClock) (o : Options) (cfg : RunConfig) :
    m Outcome := do
  match ← (Session.openRom o.rom cfg o.save host : ExceptT SessionError m Session).run with
  | .error e => return fail "" e
  | .ok s =>
    match ← runner cfg.frames cfg.stopOnBreak s with
    | (.error e, _) => return fail "" e
    | (.ok done, s) => finish o.debug cfg.frames done s

def runOptions (runner : Runner m) (host : HostClock) (o : Options) : m Outcome := do
  let cfg ← settings o
  runWith runner host o cfg

def run (runner : Runner m) (host : HostClock) (arguments : List String) : m Outcome :=
  match Options.parse arguments with
  | .error e => return refuse e
  | .ok o => runOptions runner host o

end Program

end Handheld
