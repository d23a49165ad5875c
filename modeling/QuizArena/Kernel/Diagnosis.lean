import QuizArena.Kernel.UnitOfWork
import QuizArena.Lib.Noted

/-!
# Diagnoses

Where a database error is born it is told, at a level that fits its class; from there on
only the class goes on. Here are the errors with all that a diagnosis looks at, and the unit
of work with what it tells and the span it runs under.
-/

namespace QuizArena.Kernel

open Lib

/-! ## Errors in full -/

/-- `sqlx::Error`, with the variants a diagnosis looks at. -/
inductive SqlxFailure where
  | database (error : DatabaseError)
  | io (message : String)
  | workerCrashed
  | other (message : String)
  deriving DecidableEq

/-- `sea_orm::RuntimeErr`, over them. -/
inductive RuntimeFailure where
  | sqlxError (error : SqlxFailure)
  | internal (message : String)
  deriving DecidableEq

/-- `sea_orm::DbErr`, with the variants a diagnosis looks at. -/
inductive Failure where
  | conn (error : RuntimeFailure)
  | connectionAcquire (message : String)
  | exec (error : RuntimeFailure)
  | query (error : RuntimeFailure)
  | other (message : String)
  deriving DecidableEq

/-- What a classification looks at. -/
def SqlxFailure.toSqlxError : SqlxFailure → SqlxError
  | .database error => .database error
  | .io message | .other message => .other message
  | .workerCrashed => .other "worker crashed"

def RuntimeFailure.toRuntimeErr : RuntimeFailure → RuntimeErr
  | .sqlxError error => .sqlxError error.toSqlxError
  | .internal message => .internal message

def Failure.toDbErr : Failure → DbErr
  | .conn error => .conn error.toRuntimeErr
  | .exec error => .exec error.toRuntimeErr
  | .query error => .query error.toRuntimeErr
  | .connectionAcquire message | .other message => .other message

theorem SqlxFailure.toSqlxError_surjective : Function.Surjective SqlxFailure.toSqlxError
  | .database error => ⟨.database error, rfl⟩
  | .other message => ⟨.other message, rfl⟩

theorem RuntimeFailure.toRuntimeErr_surjective : Function.Surjective RuntimeFailure.toRuntimeErr
  | .sqlxError error =>
    let ⟨failure, h⟩ := SqlxFailure.toSqlxError_surjective error
    ⟨.sqlxError failure, congrArg RuntimeErr.sqlxError h⟩
  | .internal message => ⟨.internal message, rfl⟩

/-- Every error is that of a failure. -/
theorem Failure.toDbErr_surjective : Function.Surjective Failure.toDbErr
  | .conn error =>
    let ⟨failure, h⟩ := RuntimeFailure.toRuntimeErr_surjective error
    ⟨.conn failure, congrArg DbErr.conn h⟩
  | .exec error =>
    let ⟨failure, h⟩ := RuntimeFailure.toRuntimeErr_surjective error
    ⟨.exec failure, congrArg DbErr.exec h⟩
  | .query error =>
    let ⟨failure, h⟩ := RuntimeFailure.toRuntimeErr_surjective error
    ⟨.query failure, congrArg DbErr.query h⟩
  | .other message => ⟨.other message, rfl⟩

/-- `unanswered`. -/
def unanswered : Failure → Bool
  | .conn _ | .connectionAcquire _ => true
  | .exec (.sqlxError error) | .query (.sqlxError error) =>
    match error with
    | .io _ | .workerCrashed => true
    | .database _ | .other _ => false
  | _ => false

/-! ## Notes -/

/-- `tracing::Level`. -/
inductive Level where
  | trace
  | debug
  | info
  | warn
  | error
  deriving DecidableEq, Repr

/-- The value of a field. A failure is displayed by the database library. -/
inductive FieldValue where
  | failure (source : Failure)
  | text (text : String)
  | int (value : Int)
  | bool (value : Bool)
  deriving DecidableEq

/-- What is told: an event, a field of the current span, or a measurement. -/
inductive Note where
  | event (level : Level) (fields : List (String × FieldValue)) (message : String)
  | record (field : String) (value : FieldValue)
  | add (counter : String) (value : Nat) (attributes : List (String × FieldValue))
  deriving DecidableEq

/-- A span; a field without a value is yet to be recorded. -/
structure Span where
  name : String
  fields : List (String × Option FieldValue)
  deriving DecidableEq

/-- A program that tells. -/
abbrev Telltale (B : Signature) := Noted B Note Span

/-- An event with a source is a diagnosis. -/
def Note.isDiagnosis : Note → Bool
  | .event _ fields _ => (fields.map Prod.fst).contains "source"
  | .record _ _ | .add _ _ _ => false

/-- `log_database_error`. -/
def logDatabaseError (source : Failure) : Note :=
  if contended source.toDbErr then .event .debug [("source", .failure source)] "contended"
  else if unanswered source then
    .event .warn [("source", .failure source)] "persistence did not answer"
  else .event .error [("source", .failure source)] "persistence failure"

theorem isDiagnosis_logDatabaseError (source : Failure) :
    (logDatabaseError source).isDiagnosis = true := by
  unfold logDatabaseError
  split
  · simp [Note.isDiagnosis]
  · split <;> simp [Note.isDiagnosis]

/-! ## The unit of work -/

/-- The statements of a database, whose failures are known in full. -/
def Attempts (W : Signature) : Signature := ⟨W.Op, fun op => Except Failure (W.Reply op)⟩

/-- The driver over them. -/
def Driver (W : Signature) : Signature where
  Op := TxOp W.Op
  Reply
    | .begin | .commit | .rollback => Except Failure Unit
    | .statement op => Except Failure (W.Reply op)

section Run

variable {W : Signature} {T E : Type}

/-- A call with `inspect_err(log_database_error)` and `?`. -/
def inspected {B : Signature} {α ε : Type} (into : DbErr → ε) (op : B.Op)
    (answer : B.Reply op → Except Failure α) (rest : α → Prog (Telltale B) (Except ε T)) :
    Prog (Telltale B) (Except ε T) :=
  (Prog.ask op).bind fun reply =>
    match answer reply with
    | .ok value => rest value
    | .error source => .noting (logDatabaseError source) (.pure (.error (into source.toDbErr)))

/-- A statement of the work among what the driver is asked. -/
def inTransaction : Event (Telltale (Attempts W)) → Event (Telltale (Driver W))
  | ⟨.inl op, reply⟩ => ⟨.inl (.statement op), reply⟩
  | ⟨.inr what, reply⟩ => ⟨.inr what, reply⟩

/-- The work, its statements sent through the open transaction. -/
def tracedBoundTo : Prog (Telltale (Attempts W)) T → Prog (Telltale (Driver W)) T
  | .pure value => .pure value
  | .call (.inl op) next =>
    .call (S := Telltale (Driver W)) (.inl (.statement op)) fun reply => tracedBoundTo (next reply)
  | .call (.inr what) next =>
    .call (S := Telltale (Driver W)) (.inr what) fun reply => tracedBoundTo (next reply)

/-- The span of `run`. -/
def transactionSpan : Span := ⟨"transaction", []⟩

def rollbackFailed (source : Failure) : Note :=
  .event .error [("source", .failure source)] "failed to roll back transaction"

/-- The `match outcome` of `SeaOrmUnitOfWork::run`, and what it tells. -/
def tracedSettle (into : RepositoryError Empty → E) :
    Except E T → Prog (Telltale (Driver W)) (Except E T)
  | .ok value =>
    inspected (B := Driver W) (fun source => into (.ofDbErr source)) .commit id fun () =>
      .pure (.ok value)
  | .error error =>
    (Prog.ask (B := Driver W) .rollback).bind fun
      | .ok () => .pure (.error error)
      | .error source => .noting (rollbackFailed source) (.pure (.error error))

/-- `SeaOrmUnitOfWork::run`, and what it tells. -/
def tracedRun (into : RepositoryError Empty → E)
    (work : Prog (Telltale (Attempts W)) (Except E T)) : Prog (Telltale (Driver W)) (Except E T) :=
  .inSpan transactionSpan
    (inspected (B := Driver W) (fun source => into (.ofDbErr source)) .begin id fun () =>
      (tracedBoundTo work).bind (tracedSettle into))

/-! ## What is seen of it -/

def seenStatement : Event (Telltale (Attempts W)) → Option (Event (Statements W))
  | ⟨.inl op, reply⟩ => some ⟨op, Except.mapError Failure.toDbErr reply⟩
  | ⟨.inr _, _⟩ => none

def seenCall : Event (Telltale (Driver W)) → Option (Event (Tx W))
  | ⟨.inl .begin, reply⟩ => some ⟨.begin, Except.mapError Failure.toDbErr reply⟩
  | ⟨.inl (.statement op), reply⟩ => some ⟨.statement op, Except.mapError Failure.toDbErr reply⟩
  | ⟨.inl .commit, reply⟩ => some ⟨.commit, Except.mapError Failure.toDbErr reply⟩
  | ⟨.inl .rollback, reply⟩ => some ⟨.rollback, Except.mapError Failure.toDbErr reply⟩
  | ⟨.inr _, _⟩ => none

theorem mapError_surjective {α : Type} :
    Function.Surjective (Except.mapError (α := α) Failure.toDbErr)
  | .ok value => ⟨.ok value, rfl⟩
  | .error error =>
    let ⟨failure, h⟩ := Failure.toDbErr_surjective error
    ⟨.error failure, congrArg Except.error h⟩

/-- A statement that is inspected is seen as the statement. -/
theorem follows_inspected {α ε : Type} {into : DbErr → ε} {op : W.Op}
    {rest' : W.Reply op → Prog (Telltale (Attempts W)) (Except ε α)}
    {rest : W.Reply op → Prog (Statements W) (Except ε α)}
    (h : ∀ value, Prog.Follows seenStatement (rest' value) (rest value)) :
    Prog.Follows seenStatement (inspected (B := Attempts W) into op id rest')
      (.orReturn into (.perform (S := Statements W) op) rest) := by
  refine .call (Except.mapError Failure.toDbErr) mapError_surjective (fun _ => rfl) fun reply => ?_
  cases reply with
  | ok value => exact h value
  | error source => exact Prog.follows_noting (fun _ => rfl) (.pure _)

theorem follows_boundTo {work' : Prog (Telltale (Attempts W)) T} {work : Prog (Statements W) T}
    (h : Prog.Follows seenStatement work' work) :
    Prog.Follows seenCall (tracedBoundTo work') (boundTo work) := by
  induction h with
  | pure value => exact .pure value
  | @silent op next work hreply hseen _ ih =>
    cases op with
    | inl op =>
      obtain ⟨reply⟩ := hreply
      cases hseen reply
    | inr what => exact .silent ⟨()⟩ (fun _ => rfl) ih
  | @call op' next' op next seenReply hsurjective hseen _ ih =>
    cases op' with
    | inl op' =>
      obtain ⟨rfl, _⟩ := Sigma.mk.inj (Option.some.inj (hseen (Except.error (.other ""))))
      obtain rfl : Except.mapError Failure.toDbErr = seenReply := by
        funext reply
        exact eq_of_heq (Sigma.mk.inj (Option.some.inj (hseen reply))).2
      exact .call (Except.mapError Failure.toDbErr) hsurjective (fun _ => rfl) ih
    | inr what => cases hseen ()

theorem follows_settle {into : RepositoryError Empty → E} (outcome : Except E T) :
    Prog.Follows seenCall (tracedSettle (W := W) into outcome) (settle into outcome) := by
  cases outcome with
  | ok value =>
    refine .call (Except.mapError Failure.toDbErr) mapError_surjective (fun _ => rfl)
      fun reply => ?_
    cases reply with
    | ok => exact .pure _
    | error source => exact Prog.follows_noting (fun _ => rfl) (.pure _)
  | error error =>
    refine .call (Except.mapError Failure.toDbErr) mapError_surjective (fun _ => rfl)
      fun reply => ?_
    cases reply with
    | ok => exact .pure _
    | error source => exact Prog.follows_noting (fun _ => rfl) (.pure _)

/-- What a unit of work tells does not change what it does. -/
theorem follows_run {into : RepositoryError Empty → E}
    {work' : Prog (Telltale (Attempts W)) (Except E T)} {work : Prog (Statements W) (Except E T)}
    (h : Prog.Follows seenStatement work' work) :
    Prog.Follows seenCall (tracedRun into work') (run into work) := by
  refine Prog.follows_inSpan (fun _ => rfl) ?_
  refine .call (Except.mapError Failure.toDbErr) mapError_surjective (fun _ => rfl) fun reply => ?_
  cases reply with
  | ok => exact (follows_boundTo h).bind follows_settle
  | error source => exact Prog.follows_noting (fun _ => rfl) (.pure _)

/-! ## What it tells -/

/-- What a database tells of its statements: the span of each, the notes that are due, and the
    other notes that may be told. -/
structure Customs (W : Signature) where
  spanOf : W.Op → Span
  due : Event (Attempts W) → List Note
  may : List Span → Note → Prop

/-- A statement is sent in its span inside of the transaction's. -/
def Customs.statements (customs : Customs W) : Etiquette (Attempts W) Note Span where
  within spans op := ∃ outer, spans = customs.spanOf op :: transactionSpan :: outer
  due := customs.due
  may := customs.may

/-- The driver is asked inside of the transaction's span, and every failure is told. -/
def Customs.driver (customs : Customs W) : Etiquette (Driver W) Note Span where
  within
    | spans, .statement op => ∃ outer, spans = customs.spanOf op :: transactionSpan :: outer
    | spans, .begin | spans, .commit | spans, .rollback =>
      ∃ outer, spans = transactionSpan :: outer
  due
    | ⟨.statement op, reply⟩ => customs.due ⟨op, reply⟩
    | ⟨.begin, .error source⟩ | ⟨.commit, .error source⟩ => [logDatabaseError source]
    | ⟨.rollback, .error source⟩ => [rollbackFailed source]
    | ⟨.begin, .ok _⟩ | ⟨.commit, .ok _⟩ | ⟨.rollback, .ok _⟩ => []
  may := customs.may

/-- A call that is inspected is told well if its failure is all that is due of it. -/
theorem told_inspected {B : Signature} {α ε : Type} {Q : Etiquette B Note Span} {into : DbErr → ε}
    {op : B.Op} {answer : B.Reply op → Except Failure α}
    {rest : α → Prog (Telltale B) (Except ε T)} {spans : List Span}
    {log : List (Event (Telltale B))} {result : Except ε T} (hwithin : Q.within spans op)
    (hdue : ∀ reply source, answer reply = .error source →
      Q.due ⟨op, reply⟩ = [logDatabaseError source])
    (hrest : ∀ reply value after, answer reply = .ok value →
      Prog.Runs (rest value) after result → Told Q spans (calling ⟨op, reply⟩ :: after))
    (h : Prog.Runs (inspected into op answer rest) log result) : Told Q spans log := by
  obtain ⟨reply, after, rfl, hafter⟩ := Prog.runs_ask_bind_iff.mp h
  cases hanswer : answer reply with
  | ok value =>
    rw [hanswer] at hafter
    exact hrest reply value after hanswer hafter
  | error source =>
    rw [hanswer] at hafter
    obtain ⟨after, rfl, hend⟩ := Prog.runs_noting_iff.mp hafter
    obtain ⟨rfl, _⟩ := Prog.runs_pure_iff.mp hend
    exact .call_one hwithin (hdue reply source hanswer) (.nil spans)

theorem runs_tracedBoundTo {work : Prog (Telltale (Attempts W)) T}
    {log : List (Event (Telltale (Driver W)))} {value : T}
    (h : Prog.Runs (tracedBoundTo work) log value) :
    ∃ inside, log = inside.map inTransaction ∧ Prog.Runs work inside value := by
  induction work generalizing log with
  | pure result =>
    obtain ⟨rfl, rfl⟩ := Prog.runs_pure_iff.mp h
    exact ⟨[], rfl, .pure _⟩
  | call op next ih =>
    cases op with
    | inl op =>
      obtain ⟨reply, after, rfl, hafter⟩ := Prog.runs_call_iff.mp h
      obtain ⟨inside, rfl, hinside⟩ := ih reply hafter
      exact ⟨⟨.inl op, reply⟩ :: inside, rfl,
        .call (S := Telltale (Attempts W)) (.inl op) reply hinside⟩
    | inr what =>
      obtain ⟨reply, after, rfl, hafter⟩ := Prog.runs_call_iff.mp h
      obtain ⟨inside, rfl, hinside⟩ := ih reply hafter
      exact ⟨⟨.inr what, reply⟩ :: inside, rfl,
        .call (S := Telltale (Attempts W)) (.inr what) reply hinside⟩

theorem map_inTransaction_tellings (list : List Note) :
    (tellings list).map (inTransaction (W := W)) = tellings list := by
  unfold tellings
  rw [List.map_map]
  rfl

/-- Through the transaction the work is told as it is. -/
theorem told_inTransaction {customs : Customs W} {spans : List Span}
    {log : List (Event (Telltale (Attempts W)))} (h : Told customs.statements spans log) :
    Told customs.driver spans (log.map inTransaction) := by
  induction h with
  | nil => exact .nil _
  | @call spans event log hwithin _ ih =>
    rw [List.map_cons, List.map_append, map_inTransaction_tellings]
    let sent : Event (Driver W) := ⟨.statement event.1, event.2⟩
    have hwithin' : customs.driver.within spans sent.1 := hwithin
    exact .call hwithin' ih
  | note hmay _ ih => exact .note hmay ih
  | span _ _ ihinside ih =>
    rw [List.map_cons, List.map_append, List.map_cons]
    exact .span ihinside ih

/-- The end of a unit of work is told well. -/
theorem told_settle {customs : Customs W} {into : RepositoryError Empty → E}
    {outcome result : Except E T} {outer : List Span} {log : List (Event (Telltale (Driver W)))}
    (h : Prog.Runs (tracedSettle into outcome) log result) :
    Told customs.driver (transactionSpan :: outer) log := by
  unfold tracedSettle at h
  cases outcome with
  | ok value =>
    have hwithin : customs.driver.within (transactionSpan :: outer) TxOp.commit := ⟨outer, rfl⟩
    refine told_inspected hwithin ?_ ?_ h
    · intro reply source hreply
      obtain rfl : reply = .error source := hreply
      rfl
    · intro reply value' after hreply hafter
      obtain rfl : reply = .ok value' := hreply
      obtain ⟨rfl, _⟩ := Prog.runs_pure_iff.mp hafter
      exact .call_quiet hwithin rfl (.nil _)
  | error error =>
    have hwithin : customs.driver.within (transactionSpan :: outer) TxOp.rollback := ⟨outer, rfl⟩
    obtain ⟨reply, after, rfl, hafter⟩ := Prog.runs_ask_bind_iff.mp h
    cases reply with
    | ok =>
      obtain ⟨rfl, _⟩ := Prog.runs_pure_iff.mp hafter
      exact .call_quiet hwithin rfl (.nil _)
    | error source =>
      obtain ⟨after, rfl, hend⟩ := Prog.runs_noting_iff.mp hafter
      obtain ⟨rfl, _⟩ := Prog.runs_pure_iff.mp hend
      exact .call_one hwithin rfl (.nil _)

/-- A unit of work is told well if its work is. -/
theorem told_run {customs : Customs W} {into : RepositoryError Empty → E}
    {work : Prog (Telltale (Attempts W)) (Except E T)} {outer : List Span}
    {log : List (Event (Telltale (Driver W)))} {result : Except E T}
    (hwork : ∀ log outcome, Prog.Runs work log outcome →
      Told customs.statements (transactionSpan :: outer) log)
    (h : Prog.Runs (tracedRun into work) log result) : Told customs.driver outer log := by
  obtain ⟨inside, rfl, hinside⟩ := Prog.runs_inSpan_iff.mp h
  refine .span ?_ (.nil outer)
  have hwithin : customs.driver.within (transactionSpan :: outer) TxOp.begin := ⟨outer, rfl⟩
  refine told_inspected hwithin ?_ ?_ hinside
  · intro reply source hreply
    obtain rfl : reply = .error source := hreply
    rfl
  · intro reply value after hreply hafter
    obtain rfl : reply = .ok value := hreply
    obtain ⟨before, last, outcome, rfl, hbound, hsettle⟩ := Prog.runs_bind_iff.mp hafter
    obtain ⟨statements, rfl, hstatements⟩ := runs_tracedBoundTo hbound
    exact .call_quiet hwithin rfl
      ((told_inTransaction (hwork statements outcome hstatements)).append (told_settle hsettle))

end Run

end QuizArena.Kernel
