import Handheld.Address
import Handheld.Toml.Value

/-!
Numbers, dates and times, and the other values of a single word. Digits may be grouped by
single underscores; a decimal number has no leading zeros.
-/
namespace Handheld.Toml

def isDigit (c : Char) : Bool := decide ('0' ≤ c) && decide (c ≤ '9')

def digitOf? (base : Nat) (c : Char) : Option Nat :=
  (Address.digitValue? c).filter (· < base)

/-- Reads grouped digits on top of the value of those before them. An underscore needs a
digit on either side. -/
def readGrouped? (base : Nat) : Nat → Bool → List Char → Option Nat
  | value, afterDigit, [] => if afterDigit then some value else none
  | value, afterDigit, c :: rest =>
    if c = '_' then if afterDigit then readGrouped? base value false rest else none
    else do readGrouped? base (base * value + (← digitOf? base c)) true rest

def grouped? (base : Nat) (cs : List Char) : Option Nat := readGrouped? base 0 false cs

/-- A decimal number without leading zeros. -/
def decimal? (cs : List Char) : Option Nat :=
  match cs with
  | '0' :: _ :: _ => none
  | _ => grouped? 10 cs

def splitSign : List Char → Bool × List Char
  | '+' :: rest => (false, rest)
  | '-' :: rest => (true, rest)
  | cs => (false, cs)

def integer? (word : List Char) : Option Int :=
  match word with
  | '0' :: 'x' :: digits => (grouped? 16 digits).map Int.ofNat
  | '0' :: 'o' :: digits => (grouped? 8 digits).map Int.ofNat
  | '0' :: 'b' :: digits => (grouped? 2 digits).map Int.ofNat
  | _ => do
    let (negative, digits) := splitSign word
    let n ← decimal? digits
    return if negative then -Int.ofNat n else Int.ofNat n

/-- The least number that double precision rounds to infinity. -/
def doubleLimit : Nat := Nat.pow 2 1024 - Nat.pow 2 970

/-- Whether `mantissa` times ten to the power of `exponent` reaches the limit. -/
def exceedsDouble (mantissa : Nat) (exponent : Int) : Bool :=
  let digits := (Nat.toDigits 10 mantissa).length + exponent
  if mantissa = 0 ∨ digits < 309 then false
  else if 309 < digits then true
  else
    decide (doubleLimit * Nat.pow 10 (-exponent).toNat ≤ mantissa * Nat.pow 10 exponent.toNat)

/-- The digits and underscores at the start of a text, and the rest. -/
def spanDigits (cs : List Char) : List Char × List Char :=
  cs.span fun c => isDigit c || c == '_'

def exponent? : List Char → Option Int
  | [] => some 0
  | c :: rest => do
    if c != 'e' && c != 'E' then none
    let (negative, digits) := splitSign rest
    let n ← grouped? 10 digits
    return if negative then -Int.ofNat n else Int.ofNat n

/-- The fraction digits of a number and what follows them; none without a point. -/
def fraction? : List Char → Option (List Char × List Char)
  | '.' :: rest => do
    let (digits, rest) := spanDigits rest
    let _ ← grouped? 10 digits
    return (digits.filter isDigit, rest)
  | rest => some ([], rest)

/-- A number with a fraction, an exponent or both, as whether it is too large. -/
def float? (word : List Char) : Option Bool := do
  let (_, unsigned) := splitSign word
  let (whole, rest) := spanDigits unsigned
  if rest = [] then none
  let _ ← decimal? whole
  let (fraction, rest) ← fraction? rest
  let exponent ← exponent? rest
  let mantissa ← grouped? 10 (whole.filter isDigit ++ fraction)
  return exceedsDouble mantissa (exponent - fraction.length)

def isSpecialFloat (word : List Char) : Bool :=
  let (_, name) := splitSign word
  name == "inf".toList || name == "nan".toList

/-- The number of exactly the given digits. -/
def plain? (cs : List Char) : Option Nat :=
  if cs.all isDigit then grouped? 10 cs else none

def isLeapYear (year : Nat) : Bool :=
  year % 4 == 0 && (year % 100 != 0 || year % 400 == 0)

def daysInMonth (year month : Nat) : Nat :=
  match month with
  | 2 => if isLeapYear year then 29 else 28
  | 4 | 6 | 9 | 11 => 30
  | _ => 31

/-- A date of the form `1979-05-27`. -/
def isDate (cs : List Char) : Bool :=
  match cs with
  | [y1, y2, y3, y4, '-', m1, m2, '-', d1, d2] =>
    match plain? [y1, y2, y3, y4], plain? [m1, m2], plain? [d1, d2] with
    | some year, some month, some day =>
      decide (1 ≤ month ∧ month ≤ 12 ∧ 1 ≤ day ∧ day ≤ daysInMonth year month)
    | _, _, _ => false
  | _ => false

/-- Two digits with a value up to the given one. -/
def isPair (limit : Nat) (a b : Char) : Bool :=
  match plain? [a, b] with
  | some n => decide (n ≤ limit)
  | none => false

/-- A time of the form `07:32`, `07:32:00` or `07:32:00.5`. -/
def isTime (cs : List Char) : Bool :=
  match cs with
  | h1 :: h2 :: ':' :: m1 :: m2 :: rest =>
    isPair 23 h1 h2 && isPair 59 m1 m2 &&
      match rest with
      | [] => true
      | [':', s1, s2] => isPair 60 s1 s2
      | ':' :: s1 :: s2 :: '.' :: fraction =>
        isPair 60 s1 s2 && fraction != [] && fraction.all isDigit
      | _ => false
  | _ => false

/-- The offset of a time: none, `Z` or one of the form `+07:00`. -/
def isOffset (cs : List Char) : Bool :=
  match cs with
  | [] => true
  | ['Z'] => true
  | ['z'] => true
  | [sign, h1, h2, ':', m1, m2] =>
    (sign == '+' || sign == '-') && isPair 23 h1 h2 && isPair 59 m1 m2
  | _ => false

def isOffsetTime (cs : List Char) : Bool :=
  let (time, offset) := cs.span fun c => isDigit c || c == ':' || c == '.'
  isTime time && isOffset offset

def isDateTime (word : List Char) : Bool :=
  let (date, rest) := word.splitAt 10
  isTime word || isDate date &&
    match rest with
    | [] => true
    | mark :: time => (mark == 'T' || mark == 't') && isOffsetTime time

def scalar? (word : List Char) : Option Value :=
  if word = "true".toList then some (.boolean true)
  else if word = "false".toList then some (.boolean false)
  else if isSpecialFloat word then some (.float false)
  else (integer? word).map .integer <|> (float? word).map .float <|>
    if isDateTime word then some .dateTime else none

def isWordChar (c : Char) : Bool :=
  c.isAlphanum || c == '_' || c == '+' || c == '-' || c == '.' || c == ':'

/-- Reads the value of a word. A date and a time may also be joined by a blank. -/
def readScalar? (cs : List Char) : Option (Value × List Char) :=
  let (word, rest) := cs.span isWordChar
  match rest with
  | ' ' :: next :: more =>
    if isDate word && isDigit next then
      let (time, rest) := (next :: more).span isWordChar
      (scalar? (word ++ 'T' :: time)).map (·, rest)
    else (scalar? word).map (·, rest)
  | _ => (scalar? word).map (·, rest)

end Handheld.Toml
