/-!
Paths as text with slashes. The name of a path is its last segment that is neither empty
nor a single dot; its stem is what stands before the last dot of the name, unless nothing
does.
-/
namespace Handheld.Path

/-- The pieces between the slashes, of which there is always one more than slashes. -/
def segments : List Char → List (List Char)
  | [] => [[]]
  | c :: rest =>
    if c = '/' then [] :: segments rest
    else
      match segments rest with
      | first :: others => (c :: first) :: others
      | [] => [[c]]

/-- The text with given pieces between its slashes. -/
def unsplit (pieces : List (List Char)) : List Char := ['/'].intercalate pieces

/-- Segments that lead nowhere. -/
def isIdle (segment : List Char) : Bool := segment == [] || segment == ['.']

/-- The segments before the name and the name, if the path ends in one. -/
def splitName? (path : List Char) : Option (List (List Char) × List Char) :=
  match (segments path).reverse.dropWhile isIdle with
  | [] => none
  | name :: before => if name = ['.', '.'] then none else some (before.reverse, name)

def fileName? (path : String) : Option String :=
  (splitName? path.toList).map fun (_, name) => String.ofList name

/-- The part of a name before its last dot; all of it if nothing stands before that. -/
def stem (name : List Char) : List Char :=
  match name.reverse.dropWhile (· != '.') with
  | _ :: before => if before = [] then name else before.reverse
  | [] => name

/-- Whether the path ends in its name: no slash and no idle segment follows it. -/
def endsIn (path name : List Char) : Bool := (segments path).getLast? == some name

/-- The path with the extension of its name replaced. The old extension is cut off the
end before the new one is put there. A path without a name stays, and where the cut leaves
two dots, which are no name, they stay as well. -/
def withExtension (path : String) (extension : String) : String :=
  match splitName? path.toList with
  | some (before, name) =>
    let last :=
      if stem name = ['.'] ∧ endsIn path.toList name then ['.', '.']
      else stem name ++ '.' :: extension.toList
    String.ofList (unsplit (before ++ [last]))
  | none => path

def isAbsolute (path : String) : Bool := path.toList.head? == some '/'

/-- A path seen from a directory. An absolute one is the same from everywhere. -/
def join (directory path : String) : String :=
  if isAbsolute path then path
  else
    let slash := !directory.isEmpty && directory.toList.getLast? != some '/'
    directory ++ (if slash then "/" else "") ++ path

end Handheld.Path
