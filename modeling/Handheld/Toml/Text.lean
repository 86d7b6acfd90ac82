import Handheld.Address

/-!
Layout, strings and keys of a configuration document. Apart from the tab, control
characters stand nowhere, and a carriage return stands only before a line feed.
-/
namespace Handheld.Toml

def isBlank (c : Char) : Bool := c == ' ' || c == '\t'

def isPlain (c : Char) : Bool := c == '\t' || (decide (0x20 ≤ c.toNat) && c.toNat != 0x7F)

def skipBlanks (cs : List Char) : List Char := cs.dropWhile isBlank

/-- What follows the line end at the start of a text, if there is one. -/
def lineEnd? : List Char → Option (List Char)
  | '\n' :: rest => some rest
  | '\r' :: '\n' :: rest => some rest
  | _ => none

/-- Ends a line: blanks, an optional comment, and a line end or the end of the text. -/
def endLine? (cs : List Char) : Option (List Char) :=
  let rest :=
    match skipBlanks cs with
    | '#' :: comment => comment.dropWhile isPlain
    | rest => rest
  if rest = [] then some [] else lineEnd? rest

/-- Skips blanks, line ends and comments. -/
def skipLayout? (inComment : Bool) : List Char → Option (List Char)
  | [] => some []
  | '\n' :: rest => skipLayout? false rest
  | '\r' :: '\n' :: rest => skipLayout? false rest
  | c :: rest =>
    if inComment then if isPlain c then skipLayout? true rest else none
    else if isBlank c then skipLayout? false rest
    else if c = '#' then skipLayout? true rest
    else some (c :: rest)

/-- The character of a code point in hexadecimal digits, if it has one. -/
def codePoint? (digits : List Char) : Option Char := do
  let values ← digits.mapM Address.digitValue?
  let n := values.foldl (fun value d => 16 * value + d) 0
  if n.isValidChar then some (Char.ofNat n) else none

def readEscape? : List Char → Option (Char × List Char)
  | 'b' :: rest => some ('\x08', rest)
  | 't' :: rest => some ('\t', rest)
  | 'n' :: rest => some ('\n', rest)
  | 'f' :: rest => some ('\x0c', rest)
  | 'r' :: rest => some ('\r', rest)
  | 'e' :: rest => some ('\x1b', rest)
  | '"' :: rest => some ('"', rest)
  | '\\' :: rest => some ('\\', rest)
  | 'x' :: a :: b :: rest => (codePoint? [a, b]).map (·, rest)
  | 'u' :: a :: b :: c :: d :: rest => (codePoint? [a, b, c, d]).map (·, rest)
  | 'U' :: a :: b :: c :: d :: e :: f :: g :: h :: rest =>
    (codePoint? [a, b, c, d, e, f, g, h]).map (·, rest)
  | _ => none

def readBasic? : Nat → List Char → Option (List Char × List Char)
  | 0, _ => none
  | _, [] => none
  | _, '"' :: rest => some ([], rest)
  | fuel + 1, '\\' :: rest => do
    let (c, rest) ← readEscape? rest
    let (cs, rest) ← readBasic? fuel rest
    return (c :: cs, rest)
  | fuel + 1, c :: rest =>
    if isPlain c then do
      let (cs, rest) ← readBasic? fuel rest
      return (c :: cs, rest)
    else none

/-- Reads a string without escapes up to its closing quote. -/
def readLiteral? : List Char → Option (List Char × List Char)
  | [] => none
  | '\'' :: rest => some ([], rest)
  | c :: rest =>
    if isPlain c then do
      let (cs, rest) ← readLiteral? rest
      return (c :: cs, rest)
    else none

/-- The quotes that still belong to a string whose three closing quotes have been seen
at the first chance. -/
def extraQuotes (quote : Char) : List Char → List Char × List Char
  | a :: b :: rest =>
    if a = quote then if b = quote then ([a, b], rest) else ([a], b :: rest)
    else ([], a :: b :: rest)
  | [a] => if a = quote then ([a], []) else ([], [a])
  | [] => ([], [])

def skipSpace : List Char → List Char
  | '\n' :: rest => skipSpace rest
  | '\r' :: '\n' :: rest => skipSpace rest
  | c :: rest => if isBlank c then skipSpace rest else c :: rest
  | [] => []

/-- What follows a line that ends in a backslash: the next character that is no blank and
ends no line. -/
def continueLine? (cs : List Char) : Option (List Char) := do
  return skipSpace (← lineEnd? (skipBlanks cs))

/-- Reads a string of several lines up to its three closing quotes. Its line ends stay as
they are written. -/
def readMultiLine? (escapes : Bool) (quote : Char) : Nat → List Char → Option (List Char × List Char)
  | 0, _ => none
  | fuel + 1, cs =>
    let more (c : Char) (rest : List Char) := do
      let (cs, rest) ← readMultiLine? escapes quote fuel rest
      return (c :: cs, rest)
    match cs with
    | [] => none
    | c :: rest =>
      if c = quote ∧ rest.take 2 = [quote, quote] then
        some (extraQuotes quote (rest.drop 2))
      else if escapes ∧ c = '\\' then
        match continueLine? rest with
        | some rest => readMultiLine? escapes quote fuel rest
        | none => do
          let (c, rest) ← readEscape? rest
          more c rest
      else if isPlain c ∨ (lineEnd? cs).isSome then more c rest
      else none

/-- A line end right after the opening quotes does not count. -/
def dropLineEnd (cs : List Char) : List Char := (lineEnd? cs).getD cs

def readString? (cs : List Char) : Option (List Char × List Char) :=
  match cs with
  | '"' :: '"' :: '"' :: rest => readMultiLine? true '"' (rest.length + 1) (dropLineEnd rest)
  | '\'' :: '\'' :: '\'' :: rest => readMultiLine? false '\'' (rest.length + 1) (dropLineEnd rest)
  | '"' :: rest => readBasic? (rest.length + 1) rest
  | '\'' :: rest => readLiteral? rest
  | _ => none

def isKeyChar (c : Char) : Bool := c.isAlphanum || c == '_' || c == '-'

def readKey? (cs : List Char) : Option (String × List Char) :=
  match cs with
  | '"' :: rest => (readBasic? (rest.length + 1) rest).map fun (k, rest) => (String.ofList k, rest)
  | '\'' :: rest => (readLiteral? rest).map fun (k, rest) => (String.ofList k, rest)
  | _ =>
    let (key, rest) := cs.span isKeyChar
    if key = [] then none else some (String.ofList key, rest)

def readKeysWith? : Nat → List Char → Option (List String × List Char)
  | 0, _ => none
  | fuel + 1, cs => do
    let (key, rest) ← readKey? (skipBlanks cs)
    match skipBlanks rest with
    | '.' :: rest =>
      let (keys, rest) ← readKeysWith? fuel rest
      return (key :: keys, rest)
    | rest => return ([key], rest)

def longestKey : Nat := 80

def readKeys? (cs : List Char) : Option (List String × List Char) :=
  (readKeysWith? (cs.length + 1) cs).filter fun (keys, _) => keys.length ≤ longestKey

end Handheld.Toml
