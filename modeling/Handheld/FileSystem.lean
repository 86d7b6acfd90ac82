/-!
What the program needs of a file system, and the ways in which a file can fail it.
-/
namespace Handheld

inductive FileError
  | notFound
  | isDirectory
  | notDirectory
  /-- The path, or a name on the way, is longer than those may be. -/
  | nameTooLong
  /-- The path holds a NUL, which no name has. -/
  | nulInPath
  /-- Any other failure, in the system's words. -/
  | other (text : String)
  deriving DecidableEq

def FileError.message : FileError → String
  | notFound => "No such file or directory (os error 2)"
  | notDirectory => "Not a directory (os error 20)"
  | isDirectory => "Is a directory (os error 21)"
  | nameTooLong => "File name too long (os error 36)"
  | nulInPath => "file name contained an unexpected NUL byte"
  | other text => text

/-- Files that can be read, looked for and written within the monad `m`. -/
class FileSystem (m : Type → Type) where
  read : String → m (Except FileError ByteArray)
  isPresent : String → m Bool
  write : String → ByteArray → m (Except FileError Unit)

end Handheld
