import Mathlib.Init

/-!
# Character tables

The standard library reads upper case and alphanumeric characters off the Unicode
tables. The program relies on nothing about them but what they say of ASCII, so
they are a structure that carries just that.
-/

namespace QuizArena

/-- The tables behind `str::to_uppercase` and `char::is_alphanumeric`. -/
structure UnicodeTables where
  /-- The upper case of a character, which may be several. -/
  upper : Char → List Char
  /-- Whether the character is a letter or a number. -/
  isAlphanumeric : Char → Bool
  upper_ascii : ∀ c : Char, c.toNat < 128 → upper c = [c.toUpper]
  isAlphanumeric_ascii : ∀ c : Char, c.toNat < 128 → isAlphanumeric c = c.isAlphanum

/-- The tables restricted to ASCII. -/
def UnicodeTables.ascii : UnicodeTables where
  upper c := [c.toUpper]
  isAlphanumeric c := c.isAlphanum
  upper_ascii _ _ := rfl
  isAlphanumeric_ascii _ _ := rfl

/-- `str::to_uppercase`. -/
def UnicodeTables.toUppercase (tables : UnicodeTables) (s : String) : String :=
  String.ofList (s.toList.flatMap tables.upper)

example : UnicodeTables.ascii.toUppercase "my_module" = "MY_MODULE" := by decide

end QuizArena
