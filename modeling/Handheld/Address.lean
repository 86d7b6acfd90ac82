import Handheld.Text.Quoted

/-!
Addresses on the command line: hexadecimal digits after an optional prefix and an optional
plus sign. Of a bad digit and a value that is too large, the one further left is reported.
-/
namespace Handheld

inductive AddressError
  | empty
  | invalidDigit
  | tooLarge
  deriving DecidableEq

def AddressError.cause : AddressError → String
  | empty => "cannot parse integer from empty string"
  | invalidDigit => "invalid digit found in string"
  | tooLarge => "number too large to fit in target type"

/-- The report of an error in a given text. -/
def AddressError.message (e : AddressError) (text : String) : String :=
  s!"invalid address {Text.quote text}: {e.cause}"

namespace Address

def digitValue? (c : Char) : Option Nat :=
  if '0' ≤ c ∧ c ≤ '9' then some (c.toNat - 48)
  else if 'a' ≤ c ∧ c ≤ 'f' then some (c.toNat - 87)
  else if 'A' ≤ c ∧ c ≤ 'F' then some (c.toNat - 55)
  else none

def last : Nat := 0xFFFF

/-- Reads digits from the left on top of the value of those before them. -/
def readDigits : Nat → List Char → Except AddressError Nat
  | value, [] => .ok value
  | value, c :: rest =>
    match digitValue? c with
    | none => .error .invalidDigit
    | some d => if last < 16 * value + d then .error .tooLarge else readDigits (16 * value + d) rest

/-- Drops one of the prefixes. -/
def dropMark : List Char → List Char
  | '0' :: 'x' :: rest => rest
  | '0' :: 'X' :: rest => rest
  | '$' :: rest => rest
  | cs => cs

/-- Reads a number, whose plus sign needs a digit after it. -/
def readNumber : List Char → Except AddressError Nat
  | [] => .error .empty
  | ['+'] => .error .invalidDigit
  | '+' :: digits => readDigits 0 digits
  | digits => readDigits 0 digits

def parse (text : String) : Except AddressError UInt16 :=
  (readNumber (dropMark text.toList)).map UInt16.ofNat

end Address

end Handheld
