import Handheld.Toml.Scalar
import Handheld.Toml.Text

/-!
Whole documents: lines that assign a value to a key and headers that open tables. A
document with any error has no value at all.
-/
namespace Handheld.Toml

def depthLimit : Nat := 80

mutual

/-- Reads a value at a depth below which `depth` more levels may be opened. -/
def readValueWith? : Nat → Nat → List Char → Option (Value × List Char)
  | 0, _, _ => none
  | fuel + 1, depth, cs =>
    match cs with
    | '[' :: rest =>
      match depth with
      | 0 => none
      | depth + 1 => do
        let (items, rest) ← readItemsWith? fuel depth rest
        return (.array items, rest)
    | '\x7b' :: rest =>
      match depth with
      | 0 => none
      | depth + 1 => do
        let (entries, rest) ← readPairsWith? fuel depth [] rest
        return (.table .inlined entries, rest)
    | '"' :: _ => (readString? cs).map fun (s, rest) => (.text (String.ofList s), rest)
    | '\'' :: _ => (readString? cs).map fun (s, rest) => (.text (String.ofList s), rest)
    | _ => readScalar? cs

def readItemsWith? : Nat → Nat → List Char → Option (List Value × List Char)
  | 0, _, _ => none
  | fuel + 1, depth, cs => do
    match ← skipLayout? false cs with
    | ']' :: rest => return ([], rest)
    | cs =>
      let (item, rest) ← readValueWith? fuel depth cs
      match ← skipLayout? false rest with
      | ',' :: rest =>
        let (items, rest) ← readItemsWith? fuel depth rest
        return (item :: items, rest)
      | ']' :: rest => return ([item], rest)
      | _ => none

/-- Reads the entries of an inline table up to its closing brace. Layout may stand on
either side of an equals sign. -/
def readPairsWith? : Nat → Nat → Entries → List Char → Option (Entries × List Char)
  | 0, _, _, _ => none
  | fuel + 1, depth, entries, cs => do
    match ← skipLayout? false cs with
    | '\x7d' :: rest => return (entries, rest)
    | cs =>
      let (keys, rest) ← readKeys? cs
      match ← skipLayout? false rest with
      | '=' :: rest =>
        let (value, rest) ← readValueWith? fuel depth (← skipLayout? false rest)
        let entries ← entries.assignAt [] keys value
        match ← skipLayout? false rest with
        | ',' :: rest => readPairsWith? fuel depth entries rest
        | '\x7d' :: rest => return (entries, rest)
        | _ => none
      | _ => none

end

def readValue? (cs : List Char) : Option (Value × List Char) :=
  readValueWith? (2 * cs.length + 2) depthLimit cs

def readAssignment? (cs : List Char) : Option (List String × Value × List Char) := do
  let (keys, rest) ← readKeys? cs
  match rest with
  | '=' :: rest =>
    let (value, rest) ← readValue? (skipBlanks rest)
    return (keys, value, rest)
  | _ => none

/-- Reads the lines of a document below the table at `place`. -/
def readLines? : Nat → List String → Entries → List Char → Option Entries
  | 0, _, _, _ => none
  | fuel + 1, place, entries, cs => do
    match skipBlanks cs with
    | [] => return entries
    | '[' :: '[' :: rest =>
      let (keys, rest) ← readKeys? rest
      match rest with
      | ']' :: ']' :: rest =>
        readLines? fuel keys (← entries.openNext keys) (← endLine? rest)
      | _ => none
    | '[' :: rest =>
      let (keys, rest) ← readKeys? rest
      match rest with
      | ']' :: rest => readLines? fuel keys (← entries.openTable keys) (← endLine? rest)
      | _ => none
    | cs =>
      match endLine? cs with
      | some rest => readLines? fuel place entries rest
      | none =>
        let (keys, value, rest) ← readAssignment? cs
        readLines? fuel place (← entries.assignAt place keys value) (← endLine? rest)

/-- The entries of a document. A byte order mark at its start is skipped. -/
def parse? (text : String) : Option Entries :=
  let cs :=
    match text.toList with
    | c :: rest => if c = Char.ofNat 0xFEFF then rest else c :: rest
    | [] => []
  readLines? (cs.length + 1) [] [] cs

end Handheld.Toml
