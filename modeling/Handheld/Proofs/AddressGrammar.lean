import Handheld.Address
import Mathlib.Data.List.Induction
import Mathlib.Data.List.Infix

/-!
The grammar of addresses: a mark, a plus sign and digits, of which only the digits have to be there.
Reading accepts what the grammar spells and nothing else. What it refuses, it refuses for the first
thing from the left that is wrong.
-/
namespace Handheld.Address

/-- The digits with their values. -/
def digits : List (Char × Nat) :=
  "0123456789abcdef".toList.zipIdx ++ "ABCDEF".toList.zipIdx 10

def IsDigit (c : Char) (d : Nat) : Prop := (c, d) ∈ digits

instance (c : Char) (d : Nat) : Decidable (IsDigit c d) :=
  inferInstanceAs (Decidable ((c, d) ∈ digits))

/-- Digits and the number that they spell, the highest digit first. -/
inductive Numeral : List Char → Nat → Prop
  | nil : Numeral [] 0
  | concat {cs : List Char} {n : Nat} {c : Char} {d : Nat} (h : Numeral cs n) (hd : IsDigit c d) :
      Numeral (cs ++ [c]) (16 * n + d)

/-- The marks that an address may begin with. -/
def marks : List (List Char) := [['0', 'x'], ['0', 'X'], ['$']]

/-- A text that spells a number. -/
def Spells (text : String) (n : Nat) : Prop :=
  ∃ mark ∈ [] :: marks, ∃ plus ∈ [[], ['+']], ∃ cs, text.toList = mark ++ (plus ++ cs) ∧
    cs ≠ [] ∧ Numeral cs n

/-- What a text says after its mark, if it begins with one. -/
def IsBody (body : List Char) (text : String) : Prop :=
  (∃ mark ∈ marks, text.toList = mark ++ body) ∨
    (∀ mark ∈ marks, ¬mark <+: text.toList) ∧ text.toList = body

/-- A plus sign is left out where something follows it. -/
def unsigned : List Char → List Char
  | '+' :: c :: rest => c :: rest
  | cs => cs

/-- What is wrong with a character after digits that spell `n`. -/
inductive Wrong (n : Nat) (c : Char) : AddressError → Prop
  | invalidDigit (h : ∀ d, ¬IsDigit c d) : Wrong n c .invalidDigit
  | tooLarge {d : Nat} (hd : IsDigit c d) (h : 0xFFFF < 16 * n + d) : Wrong n c .tooLarge

/-- The first thing from the left that is wrong with a text of digits: what stands before it spells
an address. -/
def FirstWrong (cs : List Char) (e : AddressError) : Prop :=
  ∃ before c after n, cs = before ++ c :: after ∧ Numeral before n ∧ n ≤ 0xFFFF ∧ Wrong n c e

/-- Why a text after its mark is refused. -/
inductive Refused : List Char → AddressError → Prop
  | empty : Refused [] .empty
  | wrong {body : List Char} {e : AddressError} (h : FirstWrong (unsigned body) e) : Refused body e

/-! Digits. -/

theorem toNat_lt_of_digitValue? {c : Char} {d : Nat} (h : digitValue? c = some d) :
    c.toNat < 128 := by
  have hle {last : Char} (hlast : last.toNat < 128) (h : c ≤ last) : c.toNat < 128 :=
    Nat.lt_of_le_of_lt (Char.le_def.mp h) hlast
  unfold digitValue? at h
  split at h
  · next hc => exact hle (by decide) hc.2
  · split at h
    · next hc => exact hle (by decide) hc.2
    · split at h
      · next hc => exact hle (by decide) hc.2
      · cases h

theorem digitValue?_eq_some_iff {c : Char} {d : Nat} : digitValue? c = some d ↔ IsDigit c d := by
  constructor
  · intro h
    have key : ∀ n : Fin 128, ∀ d ∈ digitValue? (Char.ofNat n), (Char.ofNat n, d) ∈ digits := by
      decide
    have hdigit := key ⟨c.toNat, toNat_lt_of_digitValue? h⟩ d
    rw [Char.ofNat_toNat] at hdigit
    exact hdigit h
  · have key : ∀ p ∈ digits, digitValue? p.1 = some p.2 := by decide
    exact key (c, d)

theorem digitValue?_eq_none_iff {c : Char} : digitValue? c = none ↔ ∀ d, ¬IsDigit c d := by
  simp only [Option.eq_none_iff_forall_not_mem, Option.mem_def, digitValue?_eq_some_iff]

theorem toNat_le_toNat_toLower (c : Char) : c.toNat ≤ c.toLower.toNat := by
  unfold Char.toLower
  split
  · next h =>
    have hlast : c.val.toNat ≤ 90 := h.2
    have hshift : (c.val + 32).toNat = (c.val.toNat + 32) % 2 ^ 32 := UInt32.toNat_add _ _
    change c.val.toNat ≤ (c.val + 32).toNat
    omega
  · exact Nat.le_refl _

/-- A digit may be in either case. -/
theorem isDigit_of_toLower {c : Char} {d : Nat} (hd : d < 16) (h : c.toLower = Nat.digitChar d) :
    IsDigit c d := by
  have key : ∀ d : Fin 16, ∀ n : Fin 128, (Char.ofNat n).toLower = Nat.digitChar d →
      (Char.ofNat n, d.val) ∈ digits := by
    decide +kernel
  have hsmall : ∀ d : Fin 16, (Nat.digitChar d).toNat < 128 := by decide
  have hle := toNat_le_toNat_toLower c
  rw [h] at hle
  have hdigit := key ⟨d, hd⟩ ⟨c.toNat, Nat.lt_of_le_of_lt hle (hsmall ⟨d, hd⟩)⟩
  rw [Char.ofNat_toNat] at hdigit
  exact hdigit h

theorem Numeral.exists_isDigit {cs : List Char} {n : Nat} (h : Numeral cs n) :
    ∀ c ∈ cs, ∃ d, IsDigit c d := by
  induction h with
  | nil => simp
  | concat h hd ih =>
    intro c hc
    rcases List.mem_append.mp hc with hc | hc
    · exact ih c hc
    · exact List.mem_singleton.mp hc ▸ ⟨_, hd⟩

/-! Reading digits. -/

theorem readDigits_append {before : List Char} {n : Nat} (h : Numeral before n) (hn : n ≤ last)
    (rest : List Char) : readDigits 0 (before ++ rest) = readDigits n rest := by
  induction h generalizing rest with
  | nil => rfl
  | @concat cs n c d h hd ih =>
    rw [List.append_assoc, ih (by omega), List.singleton_append, readDigits,
      digitValue?_eq_some_iff.mpr hd]
    exact if_neg (by omega)

/-- A text of digits either spells an address or has something wrong. -/
theorem numeral_or_firstWrong (cs : List Char) :
    (∃ n ≤ last, Numeral cs n) ∨ ∃ e, FirstWrong cs e := by
  induction cs using List.reverseRecOn with
  | nil => exact .inl ⟨0, Nat.zero_le _, .nil⟩
  | append_singleton cs c ih =>
    rcases ih with ⟨n, hn, hcs⟩ | ⟨e, before, c', after, n, rfl, hwrong⟩
    · cases hc : digitValue? c with
      | none =>
        have hnone := digitValue?_eq_none_iff.mp hc
        exact .inr ⟨_, cs, c, [], n, rfl, hcs, hn, .invalidDigit hnone⟩
      | some d =>
        have hd := digitValue?_eq_some_iff.mp hc
        by_cases hlarge : last < 16 * n + d
        · exact .inr ⟨_, cs, c, [], n, rfl, hcs, hn, .tooLarge hd hlarge⟩
        · exact .inl ⟨_, Nat.le_of_not_lt hlarge, hcs.concat hd⟩
    · exact .inr ⟨e, before, c', after ++ [c], n, by simp, hwrong⟩

theorem Numeral.readDigits_eq {cs : List Char} {n : Nat} (h : Numeral cs n) (hn : n ≤ last) :
    readDigits 0 cs = .ok n := by
  have hread := readDigits_append h hn []
  rwa [List.append_nil, readDigits] at hread

theorem FirstWrong.readDigits_eq {cs : List Char} {e : AddressError} (h : FirstWrong cs e) :
    readDigits 0 cs = .error e := by
  obtain ⟨before, c, after, n, rfl, hbefore, hn, hwrong⟩ := h
  rw [readDigits_append hbefore hn, readDigits]
  cases hwrong with
  | invalidDigit h => rw [digitValue?_eq_none_iff.mpr h]
  | tooLarge hd h =>
    rw [digitValue?_eq_some_iff.mpr hd]
    exact if_pos h

theorem readDigits_eq_ok_iff {cs : List Char} {n : Nat} :
    readDigits 0 cs = .ok n ↔ Numeral cs n ∧ n ≤ last := by
  refine ⟨fun h => ?_, fun ⟨hcs, hn⟩ => hcs.readDigits_eq hn⟩
  rcases numeral_or_firstWrong cs with ⟨m, hm, hcs⟩ | ⟨e, hwrong⟩
  · rw [hcs.readDigits_eq hm] at h
    exact Except.ok.inj h ▸ ⟨hcs, hm⟩
  · rw [hwrong.readDigits_eq] at h
    cases h

theorem readDigits_eq_error_iff {cs : List Char} {e : AddressError} :
    readDigits 0 cs = .error e ↔ FirstWrong cs e := by
  refine ⟨fun h => ?_, FirstWrong.readDigits_eq⟩
  rcases numeral_or_firstWrong cs with ⟨n, hn, hcs⟩ | ⟨e', hwrong⟩
  · rw [hcs.readDigits_eq hn] at h
    cases h
  · rw [hwrong.readDigits_eq] at h
    exact Except.error.inj h ▸ hwrong

/-! The sign and the mark. -/

theorem exists_plus {body : List Char} (h : body ≠ []) :
    ∃ plus ∈ [[], ['+']], body = plus ++ unsigned body ∧ unsigned body ≠ [] := by
  fun_cases unsigned body with
  | case1 c rest => exact ⟨['+'], by simp, rfl, List.cons_ne_nil _ _⟩
  | case2 => exact ⟨[], by simp, rfl, h⟩

theorem unsigned_plus {cs : List Char} (h : cs ≠ []) : unsigned ('+' :: cs) = cs := by
  cases cs with
  | nil => exact absurd rfl h
  | cons c rest => rfl

theorem unsigned_of_ne {body : List Char} (h : ∀ rest, body ≠ '+' :: rest) :
    unsigned body = body := by
  fun_cases unsigned body with
  | case1 c rest => exact absurd rfl (h (c :: rest))
  | case2 => rfl

/-- A numeral has no sign that could be left out. -/
theorem Numeral.unsigned_eq {cs : List Char} {n : Nat} (h : Numeral cs n) : unsigned cs = cs := by
  apply unsigned_of_ne
  rintro rest rfl
  obtain ⟨d, hd⟩ := h.exists_isDigit '+' List.mem_cons_self
  exact digitValue?_eq_none_iff.mp rfl d hd

theorem readNumber_of_ne_nil {body : List Char} (h : body ≠ []) :
    readNumber body = readDigits 0 (unsigned body) := by
  fun_cases readNumber body with
  | case1 => exact absurd rfl h
  | case2 => rfl
  | case3 cs hcs => rw [unsigned_plus hcs]
  | case4 _ _ _ hplus => rw [unsigned_of_ne hplus]

theorem readNumber_eq_ok_iff {body : List Char} {n : Nat} :
    readNumber body = .ok n ↔
      (∃ plus ∈ [[], ['+']], ∃ cs, body = plus ++ cs ∧ cs ≠ [] ∧ Numeral cs n) ∧ n ≤ last := by
  constructor
  · intro h
    have hne : body ≠ [] := by
      rintro rfl
      cases h
    rw [readNumber_of_ne_nil hne, readDigits_eq_ok_iff] at h
    obtain ⟨plus, hplus, hbody, hunsigned⟩ := exists_plus hne
    exact ⟨⟨plus, hplus, unsigned body, hbody, hunsigned, h.1⟩, h.2⟩
  · rintro ⟨⟨plus, hplus, cs, rfl, hne, hcs⟩, hn⟩
    have hunsigned : unsigned (plus ++ cs) = cs := by
      rcases List.mem_pair.mp hplus with rfl | rfl
      · exact hcs.unsigned_eq
      · exact unsigned_plus hne
    rw [readNumber_of_ne_nil (List.append_ne_nil_of_right_ne_nil plus hne), hunsigned]
    exact hcs.readDigits_eq hn

theorem readNumber_eq_error_iff {body : List Char} {e : AddressError} :
    readNumber body = .error e ↔ Refused body e := by
  by_cases hne : body = []
  · subst hne
    constructor
    · intro h
      exact Except.error.inj h ▸ .empty
    · rintro (- | ⟨before, c, after, n, hnil, -⟩)
      · rfl
      · exact absurd hnil (by simp [unsigned])
  · rw [readNumber_of_ne_nil hne, readDigits_eq_error_iff]
    constructor
    · exact .wrong
    · rintro (- | hwrong)
      · exact absurd rfl hne
      · exact hwrong

/-- Every mark has a character that is neither a sign nor a digit. -/
theorem exists_mem_mark {mark : List Char} (h : mark ∈ marks) :
    ∃ c ∈ mark, c ≠ '+' ∧ digitValue? c = none := by
  simp only [marks, List.mem_cons, List.not_mem_nil, or_false] at h
  obtain rfl | rfl | rfl := h
  · exact ⟨'x', by simp, by simp, rfl⟩
  · exact ⟨'X', by simp, by simp, rfl⟩
  · exact ⟨'$', by simp, by simp, rfl⟩

theorem not_mark_prefix {plus cs : List Char} {n : Nat} (hplus : plus ∈ [[], ['+']])
    (hcs : Numeral cs n) : ∀ mark ∈ marks, ¬mark <+: plus ++ cs := by
  intro mark hmark hstart
  obtain ⟨c, hc, hne, hnone⟩ := exists_mem_mark hmark
  rcases List.mem_append.mp (hstart.subset hc) with hmem | hmem
  · rcases List.mem_pair.mp hplus with rfl | rfl
    · exact absurd hmem List.not_mem_nil
    · exact hne (List.mem_singleton.mp hmem)
  · obtain ⟨d, hd⟩ := hcs.exists_isDigit c hmem
    exact digitValue?_eq_none_iff.mp hnone d hd

theorem isBody_iff {body : List Char} {text : String} :
    IsBody body text ↔ dropMark text.toList = body := by
  unfold IsBody
  generalize text.toList = cs
  fun_cases dropMark cs with
  | case1 rest => simp [marks]
  | case2 rest => simp [marks]
  | case3 rest => simp [marks]
  | case4 _ hlower hupper hdollar =>
    have hnone : ∀ mark ∈ marks, ¬mark <+: cs := by
      intro mark hmark ⟨rest, hrest⟩
      simp only [marks, List.mem_cons, List.not_mem_nil, or_false] at hmark
      obtain rfl | rfl | rfl := hmark
      · exact hlower rest hrest.symm
      · exact hupper rest hrest.symm
      · exact hdollar rest hrest.symm
    constructor
    · rintro (⟨mark, hmark, hcs⟩ | ⟨-, hcs⟩)
      · exact absurd ⟨body, hcs.symm⟩ (hnone mark hmark)
      · exact hcs
    · exact fun hcs => .inr ⟨hnone, hcs⟩

/-! Reading an address. -/

theorem spells_iff {text : String} {n : Nat} :
    Spells text n ↔ ∃ plus ∈ [[], ['+']], ∃ cs, dropMark text.toList = plus ++ cs ∧ cs ≠ [] ∧
      Numeral cs n := by
  constructor
  · rintro ⟨mark, hmark, plus, hplus, cs, htext, hne, hcs⟩
    refine ⟨plus, hplus, cs, isBody_iff.mp ?_, hne, hcs⟩
    rcases List.mem_cons.mp hmark with rfl | hmark
    · refine .inr ⟨?_, htext⟩
      rw [htext, List.nil_append]
      exact not_mark_prefix hplus hcs
    · exact .inl ⟨mark, hmark, htext⟩
  · rintro ⟨plus, hplus, cs, hbody, hne, hcs⟩
    rcases isBody_iff.mpr hbody with ⟨mark, hmark, htext⟩ | ⟨-, htext⟩
    · exact ⟨mark, List.mem_cons_of_mem _ hmark, plus, hplus, cs, htext, hne, hcs⟩
    · exact ⟨[], List.mem_cons_self, plus, hplus, cs, htext, hne, hcs⟩

theorem parse_eq_ok_iff {text : String} {addr : UInt16} :
    parse text = .ok addr ↔ Spells text addr.toNat := by
  have haddr : addr.toNat ≤ last := Nat.le_of_lt_succ addr.toNat_lt
  have hread : parse text = .ok addr ↔ readNumber (dropMark text.toList) = .ok addr.toNat := by
    rw [parse]
    cases h : readNumber (dropMark text.toList) with
    | error e => simp [Except.map]
    | ok n =>
      have hn : n ≤ last := (readNumber_eq_ok_iff.mp h).2
      have hsize : n < UInt16.size := Nat.lt_succ_of_le hn
      simp only [Except.map, Except.ok.injEq]
      rw [← UInt16.toNat_inj, UInt16.toNat_ofNat_of_lt' hsize]
  rw [hread, readNumber_eq_ok_iff, spells_iff]
  exact and_iff_left haddr

theorem parse_eq_error_iff {text : String} {e : AddressError} :
    parse text = .error e ↔ ∃ body, IsBody body text ∧ Refused body e := by
  have hread : parse text = .error e ↔ readNumber (dropMark text.toList) = .error e := by
    rw [parse]
    cases readNumber (dropMark text.toList) <;> simp [Except.map]
  simp only [hread, readNumber_eq_error_iff, isBody_iff, exists_eq_left']

/-! Printed addresses. -/

theorem numeral_zeros (count : Nat) : Numeral (List.replicate count '0') 0 := by
  induction count with
  | zero => exact .nil
  | succ count ih =>
    rw [List.replicate_succ']
    exact ih.concat (d := 0) (by decide)

theorem Numeral.zeros_append {cs : List Char} {n : Nat} (h : Numeral cs n) (count : Nat) :
    Numeral (List.replicate count '0' ++ cs) n := by
  induction h with
  | nil =>
    rw [List.append_nil]
    exact numeral_zeros count
  | concat h hd ih =>
    rw [← List.append_assoc]
    exact ih.concat hd

/-- The printed digits of a number spell it, in either case. -/
theorem numeral_of_toLower {cs : List Char} {n : Nat}
    (h : cs.map Char.toLower = Nat.toDigits 16 n) : Numeral cs n := by
  induction n using Nat.strongRecOn generalizing cs with
  | ind n ih =>
    by_cases hn : n < 16
    · rw [Nat.toDigits_of_lt_base hn] at h
      obtain ⟨c, rfl, hc⟩ := List.map_eq_singleton_iff.mp h
      have hone := Numeral.nil.concat (isDigit_of_toLower hn hc)
      rwa [Nat.mul_zero, Nat.zero_add] at hone
    · rw [Nat.toDigits_of_base_le (by decide) (Nat.le_of_not_lt hn)] at h
      obtain ⟨front, back, rfl, hfront, hback⟩ := List.map_eq_append_iff.mp h
      obtain ⟨c, rfl, hc⟩ := List.map_eq_singleton_iff.mp hback
      have hlt : n / 16 < n := Nat.div_lt_self (by omega) (by decide)
      have hnumeral := (ih (n / 16) hlt hfront).concat
        (isDigit_of_toLower (Nat.mod_lt n (by decide)) hc)
      rwa [Nat.div_add_mod] at hnumeral

/-- An address is read exactly as the grammar spells it. A text that spells none is refused, and
the error says why: nothing follows the mark, or which of a bad digit and a value that is too large
comes first from the left. So a printed address is read back, with any mark, any number of zeros and
any case. -/
theorem parse_follows_grammar :
    (∀ (text : String) (addr : UInt16), parse text = .ok addr ↔ Spells text addr.toNat) ∧
    (∀ (text : String) (e : AddressError),
      parse text = .error e ↔ ∃ body, IsBody body text ∧ Refused body e) ∧
    ∀ (addr : UInt16) (zeros : Nat) (printed : List Char),
      printed.map Char.toLower = Nat.toDigits 16 addr.toNat → ∀ mark ∈ [] :: marks,
        parse (String.ofList (mark ++ List.replicate zeros '0' ++ printed)) = .ok addr := by
  refine ⟨fun _ _ => parse_eq_ok_iff, fun _ _ => parse_eq_error_iff, ?_⟩
  intro addr zeros printed hprinted mark hmark
  have hne : printed ≠ [] := by
    rintro rfl
    exact Nat.toDigits_ne_nil hprinted.symm
  refine parse_eq_ok_iff.mpr ⟨mark, hmark, [], List.mem_cons_self,
    List.replicate zeros '0' ++ printed, ?_, List.append_ne_nil_of_right_ne_nil _ hne,
    (numeral_of_toLower hprinted).zeros_append zeros⟩
  rw [String.toList_ofList, List.append_assoc, List.nil_append]

/-- Zeros make no value too large. -/
theorem parse_follows_grammar_padded :
    ['C', '0', 'f', 'E'].map Char.toLower = Nat.toDigits 16 (0xC0FE : UInt16).toNat ∧
      ['$'] ∈ [] :: marks ∧
      parse (String.ofList (['$'] ++ List.replicate 3 '0' ++ ['C', '0', 'f', 'E'])) =
        .ok 0xC0FE := by
  have hprinted : ['C', '0', 'f', 'E'].map Char.toLower =
      Nat.toDigits 16 (0xC0FE : UInt16).toNat := by decide
  have hmark : ['$'] ∈ [] :: marks := by decide
  exact ⟨hprinted, hmark, parse_follows_grammar.2.2 0xC0FE 3 _ hprinted _ hmark⟩

/-- Five digits are too large before the sixth character is looked at. -/
example : parse "0x12345g" = .error .tooLarge ∧ parse "0x1234g5" = .error .invalidDigit ∧
    parse "$+" = .error .invalidDigit ∧ parse "+0X12" = .error .invalidDigit ∧
    parse "0x" = .error .empty := by decide +kernel

end Handheld.Address
