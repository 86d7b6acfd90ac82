/-!
Hexadecimal text of a fixed number of digits, in upper case.
-/
namespace Handheld.Text

def hexDigit (n : Nat) : Char :=
  if n < 10 then Char.ofNat (48 + n) else Char.ofNat (55 + n)

/-- The last `count` digits of a number, the highest first. -/
def hexDigits : Nat → Nat → List Char
  | 0, _ => []
  | count + 1, n => hexDigits count (n / 16) ++ [hexDigit (n % 16)]

theorem length_hexDigits (count n : Nat) : (hexDigits count n).length = count := by
  induction count generalizing n with
  | zero => rfl
  | succ count ih => simp [hexDigits, ih]

def hexByte (v : UInt8) : String := String.ofList (hexDigits 2 v.toNat)

def hexWord (v : UInt16) : String := String.ofList (hexDigits 4 v.toNat)

end Handheld.Text
