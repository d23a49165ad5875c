import Mathlib.Algebra.Ring.Int.Defs
import Mathlib.Algebra.Ring.Nat

/-!
# `str::parse`

The parsers of the standard library that the configuration and the classification of
database errors use: those of the integers of a width and of the booleans. Whatever
an integer in range is printed as is read back as it.
-/

namespace QuizArena

/-- The value of a non-empty string of decimal digits. -/
def parseDigits (digits : List Char) : Option Nat :=
  if digits ≠ [] ∧ digits.all Char.isDigit then some (Nat.ofDigitChars 10 digits 0) else none

/-- An optional sign, which may be a minus only when the type is signed, and a
    numeral. -/
def parseSigned (signed : Bool) : List Char → Option Int
  | '+' :: digits => (parseDigits digits).map Int.ofNat
  | '-' :: digits => if signed then (parseDigits digits).map fun n => -Int.ofNat n else none
  | digits => (parseDigits digits).map Int.ofNat

/-- Whether an integer type of the width holds the number. -/
def InRange (signed : Bool) (bits : Nat) (n : Int) : Prop :=
  if signed then -2 ^ (bits - 1) ≤ n ∧ n < 2 ^ (bits - 1) else 0 ≤ n ∧ n < 2 ^ bits

instance (signed : Bool) (bits : Nat) (n : Int) : Decidable (InRange signed bits n) := by
  unfold InRange
  infer_instance

/-- `str::parse` for the integer type of the width. -/
def parseInteger (signed : Bool) (bits : Nat) (raw : String) : Option Int :=
  (parseSigned signed raw.toList).filter fun n => InRange signed bits n

/-- `str::parse::<bool>`. -/
def parseBool (raw : String) : Option Bool :=
  if raw = "true" then some true else if raw = "false" then some false else none

/-! ## What is parsed -/

/-- The text is a decimal numeral of the integer, with an optional sign. Only a signed
    type takes a minus, be it before a zero. -/
def IsNumeral (signed : Bool) (raw : String) (n : Int) : Prop :=
  ∃ digits : List Char, digits ≠ [] ∧ (∀ c ∈ digits, c.isDigit = true) ∧
    ((raw.toList = digits ∨ raw.toList = '+' :: digits) ∧ n = Nat.ofDigitChars 10 digits 0 ∨
      signed = true ∧ raw.toList = '-' :: digits ∧ n = -Nat.ofDigitChars 10 digits 0)

theorem parseDigits_eq_some_iff {digits : List Char} {n : Nat} :
    parseDigits digits = some n ↔
      digits ≠ [] ∧ (∀ c ∈ digits, c.isDigit = true) ∧ n = Nat.ofDigitChars 10 digits 0 := by
  unfold parseDigits
  constructor
  · intro h
    split at h
    · rename_i hdigits
      exact ⟨hdigits.1, List.all_eq_true.mp hdigits.2, (Option.some.inj h).symm⟩
    · cases h
  · rintro ⟨hne, hdigits, rfl⟩
    exact if_pos ⟨hne, List.all_eq_true.mpr hdigits⟩

/-- A sign is no digit. -/
theorem isDigit_ne_sign {c : Char} (h : c.isDigit = true) : c ≠ '+' ∧ c ≠ '-' := by
  constructor
  · rintro rfl
    exact absurd h (by decide)
  · rintro rfl
    exact absurd h (by decide)

theorem parseSigned_eq_some_iff {signed : Bool} {raw : String} {n : Int} :
    parseSigned signed raw.toList = some n ↔ IsNumeral signed raw n := by
  unfold IsNumeral
  generalize raw.toList = chars
  constructor
  · intro h
    unfold parseSigned at h
    split at h
    · rename_i digits
      obtain ⟨value, hvalue, rfl⟩ := Option.map_eq_some_iff.mp h
      obtain ⟨hne, hdigits, rfl⟩ := parseDigits_eq_some_iff.mp hvalue
      exact ⟨digits, hne, hdigits, Or.inl ⟨Or.inr rfl, rfl⟩⟩
    · rename_i digits
      split at h
      · rename_i hsigned
        obtain ⟨value, hvalue, rfl⟩ := Option.map_eq_some_iff.mp h
        obtain ⟨hne, hdigits, rfl⟩ := parseDigits_eq_some_iff.mp hvalue
        exact ⟨digits, hne, hdigits, Or.inr ⟨hsigned, rfl, rfl⟩⟩
      · cases h
    · obtain ⟨value, hvalue, rfl⟩ := Option.map_eq_some_iff.mp h
      obtain ⟨hne, hdigits, rfl⟩ := parseDigits_eq_some_iff.mp hvalue
      exact ⟨chars, hne, hdigits, Or.inl ⟨Or.inl rfl, rfl⟩⟩
  · rintro ⟨digits, hne, hdigits, ⟨rfl | rfl, rfl⟩ | ⟨rfl, rfl, rfl⟩⟩
    · have hparse := parseDigits_eq_some_iff.mpr ⟨hne, hdigits, rfl⟩
      obtain ⟨c, rest, rfl⟩ := List.exists_cons_of_ne_nil hne
      obtain ⟨hplus, hminus⟩ := isDigit_ne_sign (hdigits c List.mem_cons_self)
      unfold parseSigned
      split
      · rename_i heq
        exact absurd (List.cons.inj heq).1 hplus
      · rename_i heq
        exact absurd (List.cons.inj heq).1 hminus
      · rw [hparse]
        rfl
    · rw [parseSigned, parseDigits_eq_some_iff.mpr ⟨hne, hdigits, rfl⟩]
      rfl
    · rw [parseSigned, parseDigits_eq_some_iff.mpr ⟨hne, hdigits, rfl⟩]
      rfl

/-- An integer type parses the numerals of the integers in its range, and nothing else. -/
theorem parseInteger_eq_some_iff {signed : Bool} {bits : Nat} {raw : String} {n : Int} :
    parseInteger signed bits raw = some n ↔ IsNumeral signed raw n ∧ InRange signed bits n := by
  rw [parseInteger, Option.filter_eq_some_iff, parseSigned_eq_some_iff, decide_eq_true_eq]

/-! ## Reading back what is printed -/

theorem parseDigits_toDigits (n : Nat) : parseDigits (Nat.toDigits 10 n) = some n := by
  have hdigits : (Nat.toDigits 10 n).all Char.isDigit = true := by
    rw [List.all_eq_true]
    intro c hc
    exact Nat.isDigit_of_mem_toDigits (by omega) (by omega) hc
  rw [parseDigits, if_pos ⟨Nat.toDigits_ne_nil, hdigits⟩, Nat.ofDigitChars_ten_toDigits]

/-- A numeral does not start with a sign. -/
theorem toDigits_eq_cons (n : Nat) :
    ∃ c digits, Nat.toDigits 10 n = c :: digits ∧ c ≠ '+' ∧ c ≠ '-' := by
  obtain ⟨c, digits, h⟩ := List.exists_cons_of_ne_nil (Nat.toDigits_ne_nil (n := n) (b := 10))
  have hc : c.isDigit = true := by
    apply Nat.isDigit_of_mem_toDigits (b := 10) (n := n) (by omega) (by omega)
    rw [h]
    exact List.mem_cons_self
  refine ⟨c, digits, h, ?_, ?_⟩
  · intro heq
    subst heq
    exact absurd hc (by decide)
  · intro heq
    subst heq
    exact absurd hc (by decide)

theorem parseSigned_toString {signed : Bool} {n : Int} (h : signed = false → 0 ≤ n) :
    parseSigned signed (toString n).toList = some n := by
  rw [Int.toString_eq_repr, Int.repr_eq_if]
  by_cases hn : 0 ≤ n
  · rw [if_pos hn, Nat.toList_repr]
    obtain ⟨c, digits, hdigits, hplus, hminus⟩ := toDigits_eq_cons n.toNat
    have hparse := parseDigits_toDigits n.toNat
    rw [hdigits] at hparse ⊢
    unfold parseSigned
    split
    · rename_i heq
      exact absurd (List.cons.inj heq).1 hplus
    · rename_i heq
      exact absurd (List.cons.inj heq).1 hminus
    · rw [hparse, Option.map_some, Int.ofNat_eq_natCast, Int.toNat_of_nonneg hn]
  · have hsigned : signed = true := by
      cases signed with
      | true => rfl
      | false => exact absurd (h rfl) hn
    have hminus : "-".toList = ['-'] := by decide
    rw [if_neg hn, String.toList_append, Nat.toList_repr, hminus, List.singleton_append, hsigned]
    show (parseDigits (Nat.toDigits 10 (-n).toNat)).map (fun n => -Int.ofNat n) = some n
    rw [parseDigits_toDigits, Option.map_some, Int.ofNat_eq_natCast]
    exact congrArg some (by omega)

/-- An integer in the range of its type is read back from its decimal digits. -/
theorem parseInteger_toString {signed : Bool} {bits : Nat} {n : Int}
    (h : InRange signed bits n) : parseInteger signed bits (toString n) = some n := by
  have hsign : signed = false → 0 ≤ n := by
    intro hsigned
    subst hsigned
    simp only [InRange, Bool.false_eq_true, if_false] at h
    exact h.1
  rw [parseInteger, parseSigned_toString hsign]
  exact if_pos (by simpa using h)

end QuizArena
