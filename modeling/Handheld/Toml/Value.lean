/-!
The values of a configuration document and the rules by which its tables grow. A table
that a header has opened is complete and cannot be opened again; one that only stands on
the way to another may still be opened once; one made by a dotted key may be extended only
by dotted keys; and an inline table never.
-/
namespace Handheld.Toml

inductive Origin
  /-- Opened by a header of its own. -/
  | header
  /-- On the way to a table that a header opened. -/
  | passage
  /-- On the way of a dotted key. -/
  | dotted
  /-- Written in braces. -/
  | inlined
  deriving DecidableEq

inductive Value
  | text (s : String)
  | integer (n : Int)
  /-- A number with a fraction or an exponent, infinity or no number. Only whether it is
  too large to be stored matters. -/
  | float (tooLarge : Bool)
  | boolean (b : Bool)
  | dateTime
  | array (items : List Value)
  | table (origin : Origin) (entries : List (String × Value))
  /-- Tables that headers in double brackets open one after the other. -/
  | tables (items : List (List (String × Value)))

abbrev Entries := List (String × Value)

namespace Entries

/-- Replaces the value of a key or appends the key. -/
def put (entries : Entries) (key : String) (value : Value) : Entries :=
  match entries with
  | [] => [(key, value)]
  | (k, v) :: rest => if k = key then (k, value) :: rest else (k, v) :: put rest key value

/-- Changes the table at the end of a path. Missing tables on the way are made, and of an
array of tables the last one is meant. With `dotted`, the path is that of a dotted key. -/
def changeAt (dotted : Bool) (change : Origin → Entries → Option Entries) :
    List String → Origin → Entries → Option Entries
  | [], origin, entries => change origin entries
  | key :: path, _, entries =>
    match entries.lookup key with
    | none => do
      let origin := if dotted then .dotted else .passage
      return put entries key (.table origin (← changeAt dotted change path origin []))
    | some (.table origin inner) =>
      if origin = .inlined ∨ (dotted ∧ origin = .header) then none
      else do return put entries key (.table origin (← changeAt dotted change path origin inner))
    | some (.tables items) =>
      match items.reverse with
      | [] => none
      | last :: before => do
        return put entries key
          (.tables (before.reverse ++ [← changeAt dotted change path .header last]))
    | some _ => none

/-- Adds a new key to a table, which has to be of the kind that the key's form asks for. -/
def assign (key : String) (value : Value) (isDotted : Bool) (origin : Origin)
    (entries : Entries) : Option Entries :=
  if (origin = .dotted ↔ isDotted) ∧ (entries.lookup key).isNone then
    some (put entries key value)
  else none

/-- Adds the value of a possibly dotted key below the table at `place`. -/
def assignAt (place : List String) (keys : List String) (value : Value) (entries : Entries) :
    Option Entries :=
  match keys.reverse with
  | [] => none
  | key :: path =>
    changeAt false
      (fun origin inner =>
        changeAt true (assign key value !path.isEmpty) path.reverse origin inner)
      place .header entries

/-- Opens a table by a header. -/
def openTable (keys : List String) (entries : Entries) : Option Entries :=
  match keys.reverse with
  | [] => none
  | key :: path =>
    changeAt false
      (fun _ inner =>
        match inner.lookup key with
        | none => some (put inner key (.table .header []))
        | some (.table .passage kept) => some (put inner key (.table .header kept))
        | some _ => none)
      path.reverse .header entries

/-- Opens the next table of an array by a header in double brackets. -/
def openNext (keys : List String) (entries : Entries) : Option Entries :=
  match keys.reverse with
  | [] => none
  | key :: path =>
    changeAt false
      (fun _ inner =>
        match inner.lookup key with
        | none => some (put inner key (.tables [[]]))
        | some (.tables items) => some (put inner key (.tables (items ++ [[]])))
        | some _ => none)
      path.reverse .header entries

end Entries

def isStorable (n : Int) : Bool :=
  decide (-Int.pow 2 127 ≤ n) && decide (n < Int.pow 2 128)

mutual

def Value.wellRanged : Value → Bool
  | .integer n => isStorable n
  | .float tooLarge => !tooLarge
  | .array items => allWellRanged items
  | .table _ entries => entriesWellRanged entries
  | .tables items => tablesWellRanged items
  | _ => true

def allWellRanged : List Value → Bool
  | [] => true
  | v :: rest => v.wellRanged && allWellRanged rest

def entriesWellRanged : List (String × Value) → Bool
  | [] => true
  | (_, v) :: rest => v.wellRanged && entriesWellRanged rest

def tablesWellRanged : List (List (String × Value)) → Bool
  | [] => true
  | t :: rest => entriesWellRanged t && tablesWellRanged rest

end

end Handheld.Toml
