import Handheld.FileSystem
import Handheld.Path

/-!
A file system as a value: files and directories by the names that lead to them. The root
is also the working directory. What was last written at a place is what is read there,
and a write changes no other place.
-/
namespace Handheld

inductive DiskNode
  | file (content : ByteArray)
  | directory

instance : DecidableEq DiskNode
  | .file content, .file other =>
    decidable_of_iff (content.data = other.data) ⟨fun h => congrArg DiskNode.file (ByteArray.ext h),
      fun h => congrArg ByteArray.data (DiskNode.file.inj h)⟩
  | .file _, .directory => isFalse nofun
  | .directory, .file _ => isFalse nofun
  | .directory, .directory => isTrue rfl

/-- The names that lead from the root to a place. -/
abbrev Place := List String

structure Disk where
  nodes : List (Place × DiskNode)

namespace Disk

def empty : Disk := ⟨[]⟩

def node? (d : Disk) (place : Place) : Option DiskNode :=
  if place = [] then some .directory else d.nodes.lookup place

def put (d : Disk) (place : Place) (node : DiskNode) : Disk :=
  ⟨(place, node) :: d.nodes.filter (·.1 != place)⟩

/-- The bytes that a name may take in UTF-8. -/
def longestName : Nat := 255

/-- Follows segments from a place. Every place on the way has to be a directory. -/
def walk (d : Disk) : Place → List (List Char) → Except FileError Place
  | place, [] => .ok place
  | place, segment :: rest =>
    match d.node? place with
    | none => .error .notFound
    | some (.file _) => .error .notDirectory
    | some .directory =>
      if Path.isIdle segment then d.walk place rest
      else if segment = ['.', '.'] then d.walk place.dropLast rest
      else if longestName < (String.ofList segment).utf8ByteSize then .error .nameTooLong
      else d.walk (place ++ [String.ofList segment]) rest

def longestPath : Nat := 4095

/-- The segments of a path that can name a place at all. -/
def segmentsOf (path : String) : Except FileError (List (List Char)) :=
  if path.toList.contains '\x00' then .error .nulInPath
  else if path = "" then .error .notFound
  else if longestPath < path.utf8ByteSize then .error .nameTooLong
  else .ok (Path.segments path.toList)

def resolve (d : Disk) (path : String) : Except FileError Place := do
  d.walk [] (← segmentsOf path)

def read (d : Disk) (path : String) : Except FileError ByteArray := do
  match d.node? (← d.resolve path) with
  | some (.file content) => return content
  | some .directory => throw .isDirectory
  | none => throw .notFound

def isPresent (d : Disk) (path : String) : Bool :=
  match d.resolve path with
  | .ok place => (d.node? place).isSome
  | .error _ => false

/-- The place where a file of the given path is written. A path that ends in a slash can
only name a directory, whatever its last name is. -/
def writePlace (d : Disk) (path : String) : Except FileError Place := do
  match (← segmentsOf path).reverse with
  | [] :: before =>
    let parent := (before.dropWhile (· == [])).drop 1
    let _ ← d.walk [] ([] :: parent).reverse
    throw .isDirectory
  | backwards =>
    let place ← d.walk [] backwards.reverse
    if d.node? place = some .directory then throw .isDirectory
    return place

def write (d : Disk) (path : String) (content : ByteArray) : Except FileError Disk := do
  return d.put (← d.writePlace path) (.file content)

def makeParents (d : Disk) (place : Place) : Disk :=
  (List.range place.length).foldl
    (fun d n => if (d.node? (place.take n)).isSome then d else d.put (place.take n) .directory) d

def addFile (d : Disk) (place : Place) (content : ByteArray) : Disk :=
  (d.makeParents place).put place (.file content)

theorem node?_put (d : Disk) (place : Place) (node : DiskNode) (h : place ≠ []) :
    (d.put place node).node? place = some node := by
  simp [node?, put, h]

/-- A place that is not written keeps its node. -/
theorem node?_put_of_ne (d : Disk) {place other : Place} (node : DiskNode) (h : other ≠ place) :
    (d.put place node).node? other = d.node? other := by
  have hfilter : ∀ nodes : List (Place × DiskNode),
      (nodes.filter (·.1 != place)).lookup other = nodes.lookup other := by
    intro nodes
    induction nodes with
    | nil => rfl
    | cons entry rest ih =>
      obtain ⟨name, old⟩ := entry
      by_cases hname : name = place
      · subst hname
        have hmiss : (other == name) = false := by simpa using h
        simp [List.lookup_cons, hmiss, ih]
      · simp [hname, List.lookup_cons, ih]
  have hmiss : (other == place) = false := by simpa using h
  simp [node?, put, List.lookup_cons, hmiss, hfilter]

instance : FileSystem (StateM Disk) where
  read path := return (← get).read path
  isPresent path := return (← get).isPresent path
  write path content := do
    match (← get).write path content with
    | .ok d =>
      set d
      return .ok ()
    | .error e => return .error e

end Disk

end Handheld
