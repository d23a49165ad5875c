import QuizArena.Greet.Greeting
import QuizArena.Kernel.UnitOfWork

/-!
# The greeting repository

`SeaOrmGreetingRepository` as programs over the statements of the `greetings` table.
A count is stored as a signed 64-bit integer; a row is read back through the checks of
the domain. Which database errors are violations of the unique key is a parameter.
-/

namespace QuizArena.Greet

open Lib Kernel

variable {tables : UnicodeTables}

/-- A row of the `greetings` table. -/
structure Model where
  sender : String
  timesGreeted : Int64
  deriving DecidableEq, Repr

/-- The two ways a row is written. -/
inductive WriteKind where
  | insert
  | update
  deriving DecidableEq, Repr

/-- The statements on the `greetings` table. -/
inductive GreetingsOp where
  /-- `find_by_id` with an exclusive lock. -/
  | find (sender : String)
  | write (kind : WriteKind) (model : Model)
  deriving DecidableEq

/-- The `greetings` table. -/
def Greetings : Signature where
  Op := GreetingsOp
  Reply
    | .find _ => Option Model
    | .write _ _ => Unit

/-- `AddGreetingRejection`. -/
inductive AddGreetingRejection where
  | alreadyExists
  deriving DecidableEq, Repr

/-- `u32::try_from`. -/
def u32TryFrom (n : Int64) : Option UInt32 :=
  if 0 ≤ n.toInt ∧ n.toInt < 2 ^ 32 then some (UInt32.ofNat n.toInt.toNat) else none

/-- `i64::from`. -/
def i64From (n : UInt32) : Int64 := Int64.ofNat n.toNat

theorem toInt_i64From (n : UInt32) : (i64From n).toInt = n.toNat := by
  have hn : n.toNat < 2 ^ 32 := n.toNat_lt
  exact Int64.toInt_ofNat_of_lt (by omega)

/-- The conversion of a count is undone by reading it back. -/
@[simp] theorem u32TryFrom_i64From (n : UInt32) : u32TryFrom (i64From n) = some n := by
  have hn : n.toNat < 2 ^ 32 := n.toNat_lt
  rw [u32TryFrom, toInt_i64From, if_pos (by omega), Int.toNat_natCast, UInt32.ofNat_toNat]

/-- The row a greeting is stored as. -/
def Greeting.toModel (greeting : Greeting tables) : Model :=
  ⟨greeting.sender.asStr, i64From greeting.timesGreeted⟩

/-- The greeting of a row, by the rules of the domain. -/
def Model.rehydrate (tables : UnicodeTables) (model : Model) :
    Except (RepositoryError Empty) (Greeting tables) :=
  match SenderName.new tables model.sender with
  | .error _ => .error .internal
  | .ok sender =>
    match u32TryFrom model.timesGreeted with
    | none => .error .internal
    | some timesGreeted => .ok (.fromPersistence sender timesGreeted)

/-- A stored greeting is read back as it was. -/
@[simp] theorem rehydrate_toModel (greeting : Greeting tables) :
    greeting.toModel.rehydrate tables = .ok greeting := by
  simp [Model.rehydrate, Greeting.toModel, Greeting.fromPersistence]

theorem rehydrate_ok {model : Model} {greeting : Greeting tables}
    (h : model.rehydrate tables = .ok greeting) :
    greeting.sender.asStr = model.sender ∧
      u32TryFrom model.timesGreeted = some greeting.timesGreeted := by
  unfold Model.rehydrate at h
  split at h
  · cases h
  · rename_i sender hsender
    split at h
    · cases h
    · rename_i count hcount
      cases h
      exact ⟨SenderName.asStr_of_new hsender, hcount⟩

theorem rehydrate_error {model : Model} {error : RepositoryError Empty}
    (h : model.rehydrate tables = .error error) : error = .internal := by
  unfold Model.rehydrate at h
  split at h
  · cases h
    rfl
  · split at h
    · cases h
      rfl
    · cases h

/-- What a lookup makes of the row it finds, or of none. -/
def rehydrateRow (tables : UnicodeTables) :
    Option Model → Except (RepositoryError Empty) (Option (Greeting tables))
  | none => .ok none
  | some model => (model.rehydrate tables).map some

/-- A lookup that finds a row returns the greeting of that row. -/
theorem rehydrateRow_some {model : Model} {found : Option (Greeting tables)}
    (h : rehydrateRow tables (some model) = .ok found) :
    ∃ greeting, model.rehydrate tables = .ok greeting ∧ found = some greeting := by
  have hmap : (model.rehydrate tables).map some = .ok found := h
  cases hmodel : model.rehydrate tables with
  | error error =>
    rw [hmodel] at hmap
    cases hmap
  | ok greeting =>
    rw [hmodel] at hmap
    cases hmap
    exact ⟨greeting, rfl, rfl⟩

/-- A lookup fails only over a row that breaks the rules of the domain. -/
theorem rehydrateRow_error {row : Option Model} {error : RepositoryError Empty}
    (h : rehydrateRow tables row = .error error) :
    error = .internal ∧ ∃ model, row = some model ∧ model.rehydrate tables = .error .internal := by
  cases row with
  | none => cases h
  | some model =>
    have hmap : (model.rehydrate tables).map some = .error error := h
    cases hmodel : model.rehydrate tables with
    | ok greeting =>
      rw [hmodel] at hmap
      cases hmap
    | error error' =>
      rw [hmodel] at hmap
      cases hmap
      have herror := rehydrate_error hmodel
      subst herror
      exact ⟨rfl, model, rfl, hmodel⟩

/-- `find_by_sender`. -/
def findBySender (sender : SenderName tables) :
    Prog (Statements Greetings) (Except (RepositoryError Empty) (Option (Greeting tables))) :=
  .orReturn RepositoryError.ofDbErr
    (.perform (S := Statements Greetings) (.find sender.asStr)) fun row =>
      .pure (rehydrateRow tables row)

/-- `add`; `sql_err` says which errors are violations of the unique key. -/
def add (uniqueViolation : DbErr → Bool) (greeting : Greeting tables) :
    Prog (Statements Greetings) (Except (RepositoryError AddGreetingRejection) Unit) :=
  .orReturn (fun source => if uniqueViolation source then .rejected .alreadyExists
      else RepositoryError.ofDbErr source)
    (.perform (S := Statements Greetings) (.write .insert greeting.toModel)) fun () =>
      .pure (.ok ())

/-- `update`. -/
def update (greeting : Greeting tables) :
    Prog (Statements Greetings) (Except (RepositoryError Empty) Unit) :=
  .orReturn RepositoryError.ofDbErr
    (.perform (S := Statements Greetings) (.write .update greeting.toModel)) fun () =>
      .pure (.ok ())

/-- A violation of the unique key, by the codes of the two databases. -/
def sqlUnique (source : DbErr) : Bool :=
  (databaseError source).any fun
    | .postgres code => code = "23505"
    | .sqlite code => code = some "1555" ∨ code = some "2067"
    | .other => false

end QuizArena.Greet
