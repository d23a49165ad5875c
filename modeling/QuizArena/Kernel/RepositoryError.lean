import QuizArena.Parse

/-!
# Database errors and what a repository makes of them

`DbErr` keeps what the classification of a database error looks at: which of its
variants carries an error of the driver, and the code of one that came from the
database. `RepositoryError.ofDbErr` is the conversion every adapter falls back to.
Which errors are violations of a unique key is decided by the database library and
is a parameter.
-/

namespace QuizArena.Kernel

/-- `&dyn DatabaseError`, by the driver's error type it can be downcast to. -/
inductive DatabaseError where
  /-- `SqliteError`, with its extended result code when it has one. -/
  | sqlite (code : Option String)
  /-- `PgDatabaseError`, with its SQLSTATE. -/
  | postgres (code : String)
  | other
  deriving DecidableEq, Repr

/-- `sqlx::Error`. -/
inductive SqlxError where
  | database (error : DatabaseError)
  | other (message : String)
  deriving DecidableEq, Repr

/-- `sea_orm::RuntimeErr`. -/
inductive RuntimeErr where
  | sqlxError (error : SqlxError)
  | internal (message : String)
  deriving DecidableEq, Repr

/-- `sea_orm::DbErr`. -/
inductive DbErr where
  | conn (error : RuntimeErr)
  | exec (error : RuntimeErr)
  | query (error : RuntimeErr)
  | other (message : String)
  deriving DecidableEq, Repr

/-- `RepositoryError`. -/
inductive RepositoryError (R : Type) where
  | rejected (rejection : R)
  | conflict
  | internal
  deriving DecidableEq, Repr

/-- `sqlite_contended`. -/
def sqliteContended : DatabaseError → Bool
  | .sqlite code =>
    ((code.bind fun code => parseInteger false 32 code).any fun code =>
      code.toNat &&& 0xFF = 5 ∨ code.toNat &&& 0xFF = 6)
  | _ => false

/-- `postgres_contended`. -/
def postgresContended : DatabaseError → Bool
  | .postgres code => code = "40001" ∨ code = "40P01" ∨ code = "55P03"
  | _ => false

/-- `database_error`. -/
def databaseError : DbErr → Option DatabaseError
  | .exec (.sqlxError (.database error)) | .query (.sqlxError (.database error))
  | .conn (.sqlxError (.database error)) => some error
  | _ => none

/-- `contended`. -/
def contended (source : DbErr) : Bool :=
  (databaseError source).any fun error => sqliteContended error || postgresContended error

/-- `RepositoryError::from`. -/
def RepositoryError.ofDbErr {R : Type} (source : DbErr) : RepositoryError R :=
  if contended source then .conflict else .internal

/-- The extended codes of `SQLITE_BUSY` are contention too. -/
example : contended (.exec (.sqlxError (.database (.sqlite (some "517"))))) = true := by decide

end QuizArena.Kernel
