import QuizArena.Greet.Repository

/-!
# The use case and its handler

`execute` is `GreetInteractor::execute` over the driver: it checks the name, and then
runs a unit of work that decides between adding and updating by a fresh read, again
after a conflict as long as attempts are left. `greet` is the handler of the RPC. What
an attempt can do is said once, in `AttemptRun`, and what a call can do in `ExecuteRun`.
-/

namespace QuizArena.Greet

open Lib Kernel

variable {tables : UnicodeTables}

/-- `MAX_ATTEMPTS`. -/
def maxAttempts : Nat := 3

/-- `GreetRejection`. -/
inductive GreetRejection where
  | emptySenderName
  | senderNameTooLong (length : Nat)
  | senderNameContainsInvalidCharacter
  deriving DecidableEq, Repr

/-- `GreetRejection::from`. -/
def GreetRejection.ofSenderNameError : SenderNameError → GreetRejection
  | .empty => .emptySenderName
  | .tooLong length => .senderNameTooLong length
  | .invalidCharacter => .senderNameContainsInvalidCharacter

/-- The text of a rejection. -/
def GreetRejection.message : GreetRejection → String
  | .emptySenderName => "sender name must not be empty"
  | .senderNameTooLong length => "sender name is too long (" ++ toString length ++ " characters)"
  | .senderNameContainsInvalidCharacter => "sender name must contain only letters and numbers"

/-- `GreetOutput`. -/
inductive GreetOutput where
  | recorded (sender : String) (returning : Bool)
  | rejected (rejection : GreetRejection)
  deriving DecidableEq, Repr

/-- `GreetError`. -/
inductive GreetError where
  | conflict
  | internal
  deriving DecidableEq, Repr

/-- `GreetError::from` for an operation without rejections. -/
def GreetError.ofRepositoryError : RepositoryError Empty → GreetError
  | .conflict => .conflict
  | .internal => .internal

/-- `GreetError::from` for adding a greeting: a history that exists already is a lost
    insert race. -/
def GreetError.ofAddError : RepositoryError AddGreetingRejection → GreetError
  | .rejected .alreadyExists => .conflict
  | .conflict => .conflict
  | .internal => .internal

/-- The arms of the `match` on what the lookup has found. -/
def record (uniqueViolation : DbErr → Bool) (sender : SenderName tables) :
    Option (Greeting tables) → Prog (Statements Greetings) (Except GreetError (Greeting tables))
  | some greeting =>
    let greeting := greeting.recordAnother
    .orReturn GreetError.ofRepositoryError (update greeting) fun () => .pure (.ok greeting)
  | none =>
    let greeting := Greeting.first sender
    .orReturn GreetError.ofAddError (add uniqueViolation greeting) fun () => .pure (.ok greeting)

/-- The work of one attempt. -/
def work (uniqueViolation : DbErr → Bool) (sender : SenderName tables) :
    Prog (Statements Greetings) (Except GreetError (Greeting tables)) :=
  .orReturn GreetError.ofRepositoryError (findBySender sender) (record uniqueViolation sender)

/-- One attempt: the work in a unit of work of its own. -/
def attempt (uniqueViolation : DbErr → Bool) (sender : SenderName tables) :
    Prog (Tx Greetings) (Except GreetError (Greeting tables)) :=
  run GreetError.ofRepositoryError (work uniqueViolation sender)

/-- Whether the loop goes on after the outcome of an attempt, when attempts are left. -/
def isConflict : Except GreetError (Greeting tables) → Bool
  | .error .conflict => true
  | _ => false

/-- `GreetInteractor::execute`. -/
def execute (tables : UnicodeTables) (uniqueViolation : DbErr → Bool) (input : String) :
    Prog (Tx Greetings) (Except GreetError GreetOutput) :=
  match SenderName.new tables input with
  | .error error => .pure (.ok (.rejected (.ofSenderNameError error)))
  | .ok sender =>
    .orReturn id (.retry isConflict (attempt uniqueViolation sender) (maxAttempts - 1))
      fun greeting => .pure (.ok (.recorded greeting.sender.asStr greeting.isReturning))

/-- `connectrpc::ErrorCode`, of the errors the handler answers with. -/
inductive ErrorCode where
  | aborted
  | internal
  | invalidArgument
  deriving DecidableEq, Repr

/-- `ConnectError`. -/
structure ConnectError where
  code : ErrorCode
  message : String
  deriving DecidableEq, Repr

/-- `ConnectError::from`. -/
def ConnectError.ofGreetError : GreetError → ConnectError
  | .conflict => ⟨.aborted, "contended, retry"⟩
  | .internal => ⟨.internal, "internal error"⟩

/-- `GreetResponse`. -/
structure GreetResponse where
  message : String
  deriving DecidableEq, Repr

/-- What the handler answers for an output. -/
def respond : GreetOutput → Except ConnectError GreetResponse
  | .recorded sender true => .ok ⟨"Welcome back, " ++ sender ++ "!"⟩
  | .recorded sender false => .ok ⟨"Hello, " ++ sender ++ "! Nice to meet you."⟩
  | .rejected rejection => .error ⟨.invalidArgument, rejection.message⟩

/-- `GreetServiceHandler::greet`. -/
def greet (tables : UnicodeTables) (uniqueViolation : DbErr → Bool) (sender : String) :
    Prog (Tx Greetings) (Except ConnectError GreetResponse) :=
  .orReturn ConnectError.ofGreetError (execute tables uniqueViolation sender) fun output =>
    .pure (respond output)

/-! ## What one attempt does -/

/-- The error of an operation that did not reject. -/
def GreetError.ofDbErr (source : DbErr) : GreetError :=
  if contended source then .conflict else .internal

theorem GreetError.ofRepositoryError_ofDbErr (source : DbErr) :
    GreetError.ofRepositoryError (.ofDbErr source) = .ofDbErr source := by
  unfold RepositoryError.ofDbErr GreetError.ofDbErr
  split <;> rfl

/-- The error of a write that did not succeed: only an insert tells a violation of the
    unique key apart. -/
def GreetError.ofWriteErr (uniqueViolation : DbErr → Bool) : WriteKind → DbErr → GreetError
  | .insert, source => if uniqueViolation source then .conflict else .ofDbErr source
  | .update, source => .ofDbErr source

theorem GreetError.ofAddError_ofDbErr (uniqueViolation : DbErr → Bool) (source : DbErr) :
    GreetError.ofAddError (if uniqueViolation source then .rejected .alreadyExists
      else RepositoryError.ofDbErr source) = .ofWriteErr uniqueViolation .insert source := by
  show _ = if uniqueViolation source then GreetError.conflict else .ofDbErr source
  unfold RepositoryError.ofDbErr GreetError.ofDbErr
  split
  · rfl
  · split <;> rfl

/-- The greeting an attempt records over what it has found. -/
def nextGreeting (sender : SenderName tables) : Option (Greeting tables) → Greeting tables
  | some found => found.recordAnother
  | none => .first sender

/-- How it is written. -/
def writeKind : Option (Greeting tables) → WriteKind
  | some _ => .update
  | none => .insert

/-- The statement that records a greeting over what was found. -/
def recordOp (sender : SenderName tables) (found : Option (Greeting tables)) : GreetingsOp :=
  .write (writeKind found) (nextGreeting sender found).toModel

/-- The runs of the work. -/
inductive WorkRun (uniqueViolation : DbErr → Bool) (sender : SenderName tables) :
    List (Event (Statements Greetings)) → Except GreetError (Greeting tables) → Prop where
  | findFails (source : DbErr) :
      WorkRun uniqueViolation sender [⟨.find sender.asStr, .error source⟩]
        (.error (.ofDbErr source))
  | unreadable {row : Option Model} {error : RepositoryError Empty} :
      rehydrateRow tables row = .error error →
      WorkRun uniqueViolation sender [⟨.find sender.asStr, .ok row⟩] (.error .internal)
  | writeFails {row : Option Model} {found : Option (Greeting tables)} (source : DbErr) :
      rehydrateRow tables row = .ok found →
      WorkRun uniqueViolation sender
        [⟨.find sender.asStr, .ok row⟩, ⟨recordOp sender found, .error source⟩]
        (.error (.ofWriteErr uniqueViolation (writeKind found) source))
  | records {row : Option Model} {found : Option (Greeting tables)} :
      rehydrateRow tables row = .ok found →
      WorkRun uniqueViolation sender
        [⟨.find sender.asStr, .ok row⟩, ⟨recordOp sender found, .ok ()⟩]
        (.ok (nextGreeting sender found))

theorem runs_record {uniqueViolation : DbErr → Bool} {sender : SenderName tables}
    {found : Option (Greeting tables)} {log : List (Event (Statements Greetings))}
    {outcome : Except GreetError (Greeting tables)}
    (h : Prog.Runs (record uniqueViolation sender found) log outcome) :
    (∃ source, log = [⟨recordOp sender found, .error source⟩] ∧
        outcome = .error (.ofWriteErr uniqueViolation (writeKind found) source)) ∨
      (log = [⟨recordOp sender found, .ok ()⟩] ∧ outcome = .ok (nextGreeting sender found)) := by
  cases found with
  | none =>
    obtain ⟨reply, rest, rfl, hrest⟩ := Prog.runs_call_iff.mp h
    cases reply with
    | error source =>
      obtain ⟨rfl, rfl⟩ := Prog.runs_pure_iff.mp hrest
      rw [GreetError.ofAddError_ofDbErr]
      exact Or.inl ⟨source, rfl, rfl⟩
    | ok =>
      obtain ⟨rfl, rfl⟩ := Prog.runs_pure_iff.mp hrest
      exact Or.inr ⟨rfl, rfl⟩
  | some found =>
    obtain ⟨reply, rest, rfl, hrest⟩ := Prog.runs_call_iff.mp h
    cases reply with
    | error source =>
      obtain ⟨rfl, rfl⟩ := Prog.runs_pure_iff.mp hrest
      rw [GreetError.ofRepositoryError_ofDbErr]
      exact Or.inl ⟨source, rfl, rfl⟩
    | ok =>
      obtain ⟨rfl, rfl⟩ := Prog.runs_pure_iff.mp hrest
      exact Or.inr ⟨rfl, rfl⟩

theorem workRun_of_runs {uniqueViolation : DbErr → Bool} {sender : SenderName tables}
    {log : List (Event (Statements Greetings))} {outcome : Except GreetError (Greeting tables)}
    (h : Prog.Runs (work uniqueViolation sender) log outcome) :
    WorkRun uniqueViolation sender log outcome := by
  obtain ⟨reply, rest, rfl, hrest⟩ := Prog.runs_call_iff.mp h
  cases reply with
  | error source =>
    obtain ⟨rfl, rfl⟩ := Prog.runs_pure_iff.mp hrest
    rw [GreetError.ofRepositoryError_ofDbErr]
    exact .findFails source
  | ok row =>
    have hfound : Prog.Runs (.orReturn GreetError.ofRepositoryError
        (.pure (rehydrateRow tables row)) (record uniqueViolation sender)) rest outcome := hrest
    cases hrow : rehydrateRow tables row with
    | error error =>
      rw [hrow] at hfound
      obtain ⟨rfl, rfl⟩ := Prog.runs_pure_iff.mp hfound
      have herror := (rehydrateRow_error hrow).1
      subst herror
      exact .unreadable hrow
    | ok found =>
      rw [hrow] at hfound
      rcases runs_record hfound with ⟨source, rfl, rfl⟩ | ⟨rfl, rfl⟩
      · exact .writeFails source hrow
      · exact .records hrow

/-- The runs of an attempt. -/
inductive AttemptRun (uniqueViolation : DbErr → Bool) (sender : SenderName tables) :
    List (Event (Tx Greetings)) → Except GreetError (Greeting tables) → Prop where
  | beginFails (source : DbErr) :
      AttemptRun uniqueViolation sender [⟨.begin, .error source⟩] (.error (.ofDbErr source))
  | findFails (source : DbErr) (reply : Except DbErr Unit) :
      AttemptRun uniqueViolation sender
        [⟨.begin, .ok ()⟩, ⟨.statement (.find sender.asStr), .error source⟩, ⟨.rollback, reply⟩]
        (.error (.ofDbErr source))
  | unreadable {row : Option Model} {error : RepositoryError Empty} (reply : Except DbErr Unit) :
      rehydrateRow tables row = .error error →
      AttemptRun uniqueViolation sender
        [⟨.begin, .ok ()⟩, ⟨.statement (.find sender.asStr), .ok row⟩, ⟨.rollback, reply⟩]
        (.error .internal)
  | writeFails {row : Option Model} {found : Option (Greeting tables)} (source : DbErr)
      (reply : Except DbErr Unit) :
      rehydrateRow tables row = .ok found →
      AttemptRun uniqueViolation sender
        [⟨.begin, .ok ()⟩, ⟨.statement (.find sender.asStr), .ok row⟩,
          ⟨.statement (recordOp sender found), .error source⟩, ⟨.rollback, reply⟩]
        (.error (.ofWriteErr uniqueViolation (writeKind found) source))
  | commitFails {row : Option Model} {found : Option (Greeting tables)} (source : DbErr) :
      rehydrateRow tables row = .ok found →
      AttemptRun uniqueViolation sender
        [⟨.begin, .ok ()⟩, ⟨.statement (.find sender.asStr), .ok row⟩,
          ⟨.statement (recordOp sender found), .ok ()⟩, ⟨.commit, .error source⟩]
        (.error (.ofDbErr source))
  | commits {row : Option Model} {found : Option (Greeting tables)} :
      rehydrateRow tables row = .ok found →
      AttemptRun uniqueViolation sender
        [⟨.begin, .ok ()⟩, ⟨.statement (.find sender.asStr), .ok row⟩,
          ⟨.statement (recordOp sender found), .ok ()⟩, ⟨.commit, .ok ()⟩]
        (.ok (nextGreeting sender found))

theorem attemptRun_of_runs {uniqueViolation : DbErr → Bool} {sender : SenderName tables}
    {log : List (Event (Tx Greetings))} {outcome : Except GreetError (Greeting tables)}
    (h : Prog.Runs (attempt uniqueViolation sender) log outcome) :
    AttemptRun uniqueViolation sender log outcome := by
  cases runs_run_iff.mp h with
  | beginFails source =>
    rw [GreetError.ofRepositoryError_ofDbErr]
    exact .beginFails source
  | commits hcalls =>
    cases workRun_of_runs hcalls with
    | records hrow => exact .commits hrow
  | commitFails source hcalls =>
    rw [GreetError.ofRepositoryError_ofDbErr]
    cases workRun_of_runs hcalls with
    | records hrow => exact .commitFails source hrow
  | rollsBack reply hcalls =>
    cases workRun_of_runs hcalls with
    | findFails source => exact .findFails source reply
    | unreadable hrow => exact .unreadable reply hrow
    | writeFails source hrow => exact .writeFails source reply hrow

/-- What a call reports of the greeting it has recorded. -/
def recorded (greeting : Greeting tables) : GreetOutput :=
  .recorded greeting.sender.asStr greeting.isReturning

/-- The runs of a call: every attempt before the last has met a conflict, and the last
    has only when there was no other one left. -/
inductive ExecuteRun (tables : UnicodeTables) (uniqueViolation : DbErr → Bool) (input : String) :
    List (Event (Tx Greetings)) → Except GreetError GreetOutput → Prop where
  | rejects {error : SenderNameError} :
      SenderName.new tables input = .error error →
      ExecuteRun tables uniqueViolation input [] (.ok (.rejected (.ofSenderNameError error)))
  | tries {sender : SenderName tables} {earlier : List (List (Event (Tx Greetings)))}
      {last : List (Event (Tx Greetings))} {outcome : Except GreetError (Greeting tables)} :
      SenderName.new tables input = .ok sender →
      (∀ log ∈ earlier, AttemptRun uniqueViolation sender log (.error .conflict)) →
      AttemptRun uniqueViolation sender last outcome →
      earlier.length < maxAttempts →
      (outcome = .error .conflict → earlier.length + 1 = maxAttempts) →
      ExecuteRun tables uniqueViolation input (earlier.flatten ++ last) (outcome.map recorded)

theorem isConflict_iff {outcome : Except GreetError (Greeting tables)} :
    isConflict outcome = true ↔ outcome = .error .conflict := by
  cases outcome with
  | ok greeting => simp [isConflict]
  | error error => cases error <;> simp [isConflict]

theorem executeRun_of_runs {uniqueViolation : DbErr → Bool} {input : String}
    {log : List (Event (Tx Greetings))} {outcome : Except GreetError GreetOutput}
    (h : Prog.Runs (execute tables uniqueViolation input) log outcome) :
    ExecuteRun tables uniqueViolation input log outcome := by
  unfold execute at h
  split at h
  · rename_i error hname
    obtain ⟨rfl, rfl⟩ := Prog.runs_pure_iff.mp h
    exact .rejects hname
  · rename_i sender hname
    obtain ⟨before, after, result, rfl, hretry, hend⟩ := Prog.runs_bind_iff.mp h
    obtain ⟨earlier, last, rfl, hearlier, hlast, hlength, hspent⟩ := Prog.runs_retry hretry
    have hreport : after = [] ∧ outcome = result.map recorded := by
      cases result with
      | ok greeting => exact Prog.runs_pure_iff.mp hend
      | error error => exact Prog.runs_pure_iff.mp hend
    obtain ⟨rfl, rfl⟩ := hreport
    rw [List.append_nil]
    apply ExecuteRun.tries hname _ (attemptRun_of_runs hlast)
    · rw [List.length_map]
      exact Nat.lt_succ_of_le hlength
    · intro hconflict
      rw [List.length_map, hspent (isConflict_iff.mpr hconflict)]
      rfl
    · intro log hlog
      obtain ⟨attempt, hattempt, rfl⟩ := List.mem_map.mp hlog
      obtain ⟨hruns, hagain⟩ := hearlier attempt hattempt
      rw [isConflict_iff.mp hagain] at hruns
      exact attemptRun_of_runs hruns

/-- What the handler answers for an outcome. -/
def answerOf : Except GreetError GreetOutput → Except ConnectError GreetResponse
  | .ok output => respond output
  | .error error => .error (.ofGreetError error)

theorem executeRun_of_greet {uniqueViolation : DbErr → Bool} {request : String}
    {log : List (Event (Tx Greetings))} {answer : Except ConnectError GreetResponse}
    (h : Prog.Runs (greet tables uniqueViolation request) log answer) :
    ∃ outcome, ExecuteRun tables uniqueViolation request log outcome ∧
      answer = answerOf outcome := by
  obtain ⟨before, after, outcome, rfl, hexecute, hend⟩ := Prog.runs_bind_iff.mp h
  have hanswer : after = [] ∧ answer = answerOf outcome := by
    cases outcome with
    | ok output => exact Prog.runs_pure_iff.mp hend
    | error error => exact Prog.runs_pure_iff.mp hend
  obtain ⟨rfl, rfl⟩ := hanswer
  rw [List.append_nil]
  exact ⟨outcome, executeRun_of_runs hexecute, rfl⟩

/-- A request does not look at what a rollback is answered with. -/
theorem ignores_greet (tables : UnicodeTables) (uniqueViolation : DbErr → Bool)
    (request : String) :
    Prog.Ignores (fun op => op = TxOp.rollback) (greet tables uniqueViolation request) := by
  have hexecute : Prog.Ignores (fun op => op = TxOp.rollback)
      (execute tables uniqueViolation request) := by
    unfold execute
    split
    · trivial
    · apply ((ignores_run _ _).retry _).orReturn
      intro _
      trivial
  apply hexecute.orReturn
  intro _
  trivial

end QuizArena.Greet
