import Mathlib.Algebra.Ring.Int.Defs
import Mathlib.Algebra.Ring.Nat
import QuizArena.Unicode

/-!
# Senders and their greetings

A `SenderName` cannot be built from a string `SenderName::new` refuses: the structure
carries what the constructor has checked. A `Greeting` counts in 32 bits and
saturates.
-/

namespace QuizArena.Greet

variable {tables : UnicodeTables}

/-- `SenderNameError`. -/
inductive SenderNameError where
  | empty
  | tooLong (length : Nat)
  | invalidCharacter
  deriving DecidableEq, Repr

/-- `SenderName::MAX_LENGTH`. -/
def maxLength : Nat := 32

/-- `SenderName`, with what `SenderName::new` has checked of it. -/
@[ext]
structure SenderName (tables : UnicodeTables) where
  asStr : String
  nonempty : asStr ≠ ""
  short : asStr.length ≤ maxLength
  alphanumeric : asStr.toList.all tables.isAlphanumeric = true
  deriving DecidableEq

/-- `SenderName::new`. -/
def SenderName.new (tables : UnicodeTables) (name : String) :
    Except SenderNameError (SenderName tables) :=
  if hempty : name = "" then .error .empty
  else if hlong : maxLength < name.length then .error (.tooLong name.length)
  else if hall : name.toList.all tables.isAlphanumeric = true then
    .ok ⟨name, hempty, Nat.le_of_not_lt hlong, hall⟩
  else .error .invalidCharacter

/-- A name that is accepted is preserved. -/
theorem SenderName.asStr_of_new {name : String} {sender : SenderName tables}
    (h : SenderName.new tables name = .ok sender) : sender.asStr = name := by
  unfold SenderName.new at h
  split at h
  · cases h
  · split at h
    · cases h
    · split at h
      · cases h
        rfl
      · cases h

/-- A sender name passes its own check. -/
@[simp] theorem SenderName.new_asStr (sender : SenderName tables) :
    SenderName.new tables sender.asStr = .ok sender := by
  unfold SenderName.new
  rw [dif_neg sender.nonempty, dif_neg (Nat.not_lt.mpr sender.short), dif_pos sender.alphanumeric]

/-- `Greeting`. -/
@[ext]
structure Greeting (tables : UnicodeTables) where
  sender : SenderName tables
  timesGreeted : UInt32
  deriving DecidableEq

/-- `u32::saturating_add(1)`. -/
def saturatingSucc (n : UInt32) : UInt32 := if n.toNat + 1 < 2 ^ 32 then n + 1 else n

theorem toNat_saturatingSucc (n : UInt32) :
    (saturatingSucc n).toNat = min (2 ^ 32 - 1) (n.toNat + 1) := by
  have hn : n.toNat < 2 ^ 32 := n.toNat_lt
  unfold saturatingSucc
  split
  · rename_i h
    rw [UInt32.toNat_add, UInt32.toNat_one, Nat.mod_eq_of_lt h]
    omega
  · omega

namespace Greeting

/-- `Greeting::first`. -/
def first (sender : SenderName tables) : Greeting tables := ⟨sender, 1⟩

/-- `Greeting::from_persistence`. -/
def fromPersistence (sender : SenderName tables) (timesGreeted : UInt32) : Greeting tables :=
  ⟨sender, timesGreeted⟩

/-- `Greeting::record_another`. -/
def recordAnother (greeting : Greeting tables) : Greeting tables :=
  { greeting with timesGreeted := saturatingSucc greeting.timesGreeted }

/-- `Greeting::is_returning`. -/
def isReturning (greeting : Greeting tables) : Bool := decide (1 < greeting.timesGreeted)

@[simp] theorem isReturning_first (sender : SenderName tables) :
    (first sender).isReturning = false := by
  simp [isReturning, first]

/-- Whoever has greeted before returns, the count saturated or not. -/
theorem isReturning_recordAnother {greeting : Greeting tables}
    (h : 0 < greeting.timesGreeted.toNat) : greeting.recordAnother.isReturning = true := by
  have hcount := toNat_saturatingSucc greeting.timesGreeted
  unfold isReturning recordAnother
  rw [decide_eq_true_eq, UInt32.lt_iff_toNat_lt, hcount, UInt32.toNat_one]
  omega

end Greeting

end QuizArena.Greet
