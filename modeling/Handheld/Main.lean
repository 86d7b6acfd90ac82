import Handheld.Program
import Std.Time.DateTime.Timestamp

/-!
The program on real files. Before each go at a frame the cartridge's clock is given the
present time of the host.
-/
namespace Handheld

def FileError.ofSystem : IO.Error → FileError
  | .noFileOrDirectory .. => .notFound
  | .invalidArgument _ 36 _ => .nameTooLong
  | .inappropriateType _ 20 _ => .notDirectory
  | .inappropriateType _ 21 _ => .isDirectory
  | .otherError code details => .other s!"{details} (os error {code})"
  | .resourceBusy code details => .other s!"{details} (os error {code})"
  | .permissionDenied _ code details => .other s!"{details} (os error {code})"
  | .resourceExhausted _ code details => .other s!"{details} (os error {code})"
  | .inappropriateType _ code details => .other s!"{details} (os error {code})"
  | .invalidArgument _ code details => .other s!"{details} (os error {code})"
  | e => .other (toString e)

/-- Turns a failure of an action on the file of a path into a value. -/
def attempt {α : Type} (path : String) (act : IO α) : IO (Except FileError α) := do
  if path.toList.contains '\x00' then return .error .nulInPath
  try
    return .ok (← act)
  catch e =>
    return .error (.ofSystem e)

instance : FileSystem IO where
  read path := attempt path (IO.FS.readBinFile path)
  isPresent path := do
    match ← attempt path (IO.FS.Handle.mk path .read) with
    | .ok _ | .error .isDirectory | .error (.other _) => return true
    | .error _ => return false
  write path content := attempt path (IO.FS.writeBinFile path content)

def presentTime : IO HostClock := do
  let seconds := (← Std.Time.Timestamp.now).toSecondsSinceUnixEpoch.val
  return .fixed (UInt64.ofNat seconds.toNat)

/-- Runs a session on after what has been done, keeping its clock on time. -/
partial def runLive (frames : Nat) (stopOnBreak : Bool) (done : Summary) (s : Session) :
    IO (Except SessionError Summary × Session) := do
  if Console.isOver frames done then return (.ok done, s)
  let host ← presentTime
  match (s.console.setHost host).turn stopOnBreak done with
  | (.error e, c) => return (.error (.cpu e), { s with console := c })
  | (.ok done, c) => runLive frames stopOnBreak done { s with console := c }

end Handheld

def main (arguments : List String) : IO UInt32 := do
  let runner : Handheld.Program.Runner IO :=
    fun frames stopOnBreak s => Handheld.runLive frames stopOnBreak .start s
  let outcome ← Handheld.Program.run runner (← Handheld.presentTime) arguments
  IO.print outcome.stdout
  IO.eprint outcome.stderr
  return outcome.code.toUInt32
