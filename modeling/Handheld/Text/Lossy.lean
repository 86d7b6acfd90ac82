/-!
Decoding of bytes that may not be UTF-8. Each longest run of bytes that starts a character
without completing it, and each byte that starts none, becomes one replacement character.
-/
namespace Handheld.Text

/-- What a first byte of a character announces: its own bits of the code point, how many
bytes follow, and the range of the second byte. -/
structure Lead where
  bits : Nat
  following : Nat
  secondFirst : UInt8
  secondLast : UInt8

/-- The announcement of a first byte, if it starts a character. The second byte's range
leaves out overlong forms, surrogates and code points that are too large. -/
def Lead.of? (b : UInt8) : Option Lead :=
  if b < 0x80 then some ⟨b.toNat, 0, 0x80, 0xBF⟩
  else if b < 0xC2 then none
  else if b < 0xE0 then some ⟨b.toNat - 0xC0, 1, 0x80, 0xBF⟩
  else if b = 0xE0 then some ⟨0, 2, 0xA0, 0xBF⟩
  else if b = 0xED then some ⟨0xD, 2, 0x80, 0x9F⟩
  else if b < 0xF0 then some ⟨b.toNat - 0xE0, 2, 0x80, 0xBF⟩
  else if b = 0xF0 then some ⟨0, 3, 0x90, 0xBF⟩
  else if b < 0xF4 then some ⟨b.toNat - 0xF0, 3, 0x80, 0xBF⟩
  else if b = 0xF4 then some ⟨4, 3, 0x80, 0x8F⟩
  else none

def replacement : Char := Char.ofNat 0xFFFD

/-- Reads `n` further bytes of a character, the next one within the given range. Gives the
code point, or nothing at the first byte out of range, and the bytes not taken. -/
def followers (bits : Nat) : Nat → UInt8 → UInt8 → List UInt8 → Option Nat × List UInt8
  | 0, _, _, rest => (some bits, rest)
  | _ + 1, _, _, [] => (none, [])
  | n + 1, first, last, b :: rest =>
    if first ≤ b ∧ b ≤ last then followers (64 * bits + b.toNat % 64) n 0x80 0xBF rest
    else (none, b :: rest)

theorem length_followers_le (bits n : Nat) (first last : UInt8) (bytes : List UInt8) :
    (followers bits n first last bytes).2.length ≤ bytes.length := by
  fun_induction followers bits n first last bytes with
  | case1 => simp
  | case2 => simp
  | case3 bits first last n b rest _ ih => exact Nat.le_succ_of_le ih
  | case4 => simp

/-- The characters of a byte sequence, with replacements for what is not UTF-8. -/
def decodeLossy : List UInt8 → List Char
  | [] => []
  | b :: rest =>
    match Lead.of? b with
    | none => replacement :: decodeLossy rest
    | some lead =>
      let taken := followers lead.bits lead.following lead.secondFirst lead.secondLast rest
      (taken.1.map Char.ofNat).getD replacement :: decodeLossy taken.2
  termination_by bytes => bytes.length
  decreasing_by
    · simp
    · exact Nat.lt_succ_of_le (length_followers_le ..)

end Handheld.Text
