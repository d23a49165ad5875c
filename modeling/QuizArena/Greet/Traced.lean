import QuizArena.Greet.Usecase
import QuizArena.Kernel.Diagnosis

/-!
# What a call tells

The repository and the use case with what they tell: the spans they run under, a diagnosis of
each failure where it is born, the fields that the use case records, and the counter of the
greetings. A call does what it does without telling, and what it tells is in keeping with it.
-/

namespace QuizArena.Greet

open Lib Kernel

variable {tables : UnicodeTables} {uniqueViolation : DbErr → Bool}

/-! ## The repository -/

/-- The text of an error. -/
def SenderNameError.message : SenderNameError → String
  | .empty => "sender name must not be empty"
  | .tooLong length =>
    "sender name must be at most " ++ toString maxLength ++ " characters, got " ++ toString length
  | .invalidCharacter => "sender name must contain only letters and numbers"

/-- The text of an error. -/
def GreetError.message : GreetError → String
  | .conflict => "greeting encountered a concurrency conflict"
  | .internal => "failed to record greeting"

/-- The text of a `TryFromIntError`. -/
def tryFromIntError : String := "out of range integral type conversion attempted"

def badSender (source : SenderNameError) : Note :=
  .event .error [("source", .text source.message)] "stored sender name violates domain rules"

def badCount : Note :=
  .event .error [("source", .text tryFromIntError)] "stored greeting count violates domain rules"

def historyExists (source : Failure) : Note :=
  .event .debug [("source", .failure source)] "greeting history already exists"

/-- The greeting of a row, and what is told of one that breaks the rules of the domain. -/
def tracedRehydrate (tables : UnicodeTables) (model : Model) :
    Prog (Telltale (Attempts Greetings)) (Except (RepositoryError Empty) (Greeting tables)) :=
  match SenderName.new tables model.sender with
  | .error source => .noting (badSender source) (.pure (.error .internal))
  | .ok sender =>
    match u32TryFrom model.timesGreeted with
    | none => .noting badCount (.pure (.error .internal))
    | some timesGreeted => .pure (.ok (.fromPersistence sender timesGreeted))

def findSpan (sender : String) : Span := ⟨"find_greeting", [("sender", some (.text sender))]⟩

def writeSpan (kind : WriteKind) (model : Model) : Span where
  name :=
    match kind with
    | .insert => "add_greeting"
    | .update => "update_greeting"
  fields := [("sender", some (.text model.sender)),
    ("times_greeted", some (.int model.timesGreeted.toInt))]

/-- `find_by_sender`, and what it tells. -/
def tracedFindBySender (sender : SenderName tables) :
    Prog (Telltale (Attempts Greetings))
      (Except (RepositoryError Empty) (Option (Greeting tables))) :=
  .inSpan (findSpan sender.asStr)
    (inspected (B := Attempts Greetings) RepositoryError.ofDbErr (.find sender.asStr) id fun
      | none => .pure (.ok none)
      | some model => (tracedRehydrate tables model).bind fun found => .pure (found.map some))

/-- `add`, and what it tells. -/
def tracedAdd (uniqueViolation : DbErr → Bool) (greeting : Greeting tables) :
    Prog (Telltale (Attempts Greetings)) (Except (RepositoryError AddGreetingRejection) Unit) :=
  .inSpan (writeSpan .insert greeting.toModel)
    ((Prog.ask (B := Attempts Greetings) (.write .insert greeting.toModel)).bind fun
      | .ok () => .pure (.ok ())
      | .error source =>
        if uniqueViolation source.toDbErr then
          .noting (historyExists source) (.pure (.error (.rejected .alreadyExists)))
        else
          .noting (logDatabaseError source) (.pure (.error (.ofDbErr source.toDbErr))))

/-- `update`, and what it tells. -/
def tracedUpdate (greeting : Greeting tables) :
    Prog (Telltale (Attempts Greetings)) (Except (RepositoryError Empty) Unit) :=
  .inSpan (writeSpan .update greeting.toModel)
    (inspected (B := Attempts Greetings) RepositoryError.ofDbErr
      (.write .update greeting.toModel) id fun () => .pure (.ok ()))

/-! ## The use case -/

/-- The arms of the `match` on what the lookup has found. -/
def tracedRecord (uniqueViolation : DbErr → Bool) (sender : SenderName tables) :
    Option (Greeting tables) →
      Prog (Telltale (Attempts Greetings)) (Except GreetError (Greeting tables))
  | some greeting =>
    let greeting := greeting.recordAnother
    .orReturn GreetError.ofRepositoryError (tracedUpdate greeting) fun () => .pure (.ok greeting)
  | none =>
    let greeting := Greeting.first sender
    .orReturn GreetError.ofAddError (tracedAdd uniqueViolation greeting) fun () =>
      .pure (.ok greeting)

/-- The work of one attempt, and what it tells. -/
def tracedWork (uniqueViolation : DbErr → Bool) (sender : SenderName tables) :
    Prog (Telltale (Attempts Greetings)) (Except GreetError (Greeting tables)) :=
  .orReturn GreetError.ofRepositoryError (tracedFindBySender sender)
    (tracedRecord uniqueViolation sender)

/-- One attempt, and what it tells. -/
def tracedAttempt (uniqueViolation : DbErr → Bool) (sender : SenderName tables) :
    Prog (Telltale (Driver Greetings)) (Except GreetError (Greeting tables)) :=
  tracedRun GreetError.ofRepositoryError (tracedWork uniqueViolation sender)

def retrying (attempt : Nat) : Note :=
  .event .debug [("error", .text GreetError.conflict.message), ("attempt", .int attempt)]
    "retrying greeting"

/-- The loop of `execute` from an attempt on, and what it tells; it ends with the outcome and
    the number of the last attempt. -/
def tracedRetry (body : Prog (Telltale (Driver Greetings)) (Except GreetError (Greeting tables))) :
    Nat → Nat →
      Prog (Telltale (Driver Greetings)) (Except GreetError (Greeting tables) × Nat)
  | attempt, 0 => body.bind fun outcome => .pure (outcome, attempt)
  | attempt, left + 1 => body.bind fun outcome =>
    if isConflict outcome then .noting (retrying attempt) (tracedRetry body (attempt + 1) left)
    else .pure (outcome, attempt)

/-- The span of `execute`. -/
def usecaseSpan : Span :=
  ⟨"greet_usecase", [("returning", none), ("times_greeted", none), ("attempts", none)]⟩

def rejected (rejection : GreetRejection) : Note :=
  .event .info [("rejection", .text rejection.message)] "rejected greeting"

/-- What `execute` tells of a greeting it has recorded. -/
def recordedNotes (greeting : Greeting tables) : List Note :=
  [.record "returning" (.bool greeting.isReturning),
    .record "times_greeted" (.int greeting.timesGreeted.toNat),
    .add "greet.greetings_recorded" 1 [("returning", .bool greeting.isReturning)],
    .event .info [("sender", .text greeting.sender.asStr),
      ("returning", .bool greeting.isReturning)] "recorded greeting"]

/-- What `err(level = "warn")` tells. -/
def returnsError (error : GreetError) : Note := .event .warn [("error", .text error.message)] ""

/-- The body of `execute`, and what it tells. -/
def tracedBody (tables : UnicodeTables) (uniqueViolation : DbErr → Bool) (input : String) :
    Prog (Telltale (Driver Greetings)) (Except GreetError GreetOutput) :=
  match SenderName.new tables input with
  | .error error =>
    .noting (rejected (.ofSenderNameError error))
      (.pure (.ok (.rejected (.ofSenderNameError error))))
  | .ok sender =>
    (tracedRetry (tracedAttempt uniqueViolation sender) 1 (maxAttempts - 1)).bind fun
      | (outcome, attempts) =>
        .noting (.record "attempts" (.int attempts)) <|
          match outcome with
          | .error error => .pure (.error error)
          | .ok greeting => .notingAll (recordedNotes greeting) (.pure (.ok (recorded greeting)))

/-- `GreetInteractor::execute`, and what it tells. -/
def tracedExecute (tables : UnicodeTables) (uniqueViolation : DbErr → Bool) (input : String) :
    Prog (Telltale (Driver Greetings)) (Except GreetError GreetOutput) :=
  .inSpan usecaseSpan ((tracedBody tables uniqueViolation input).bind fun
    | .ok output => .pure (.ok output)
    | .error error => .noting (returnsError error) (.pure (.error error)))

/-- The span of `greet`. -/
def handlerSpan (request : String) : Span := ⟨"greet_handler", [("sender", some (.text request))]⟩

/-- `GreetServiceHandler::greet`, and what it tells. -/
def tracedGreet (tables : UnicodeTables) (uniqueViolation : DbErr → Bool) (request : String) :
    Prog (Telltale (Driver Greetings)) (Except ConnectError GreetResponse) :=
  .inSpan (handlerSpan request)
    (.orReturn ConnectError.ofGreetError (tracedExecute tables uniqueViolation request)
      fun output => .pure (respond output))

/-! ## What is seen of a call -/

theorem follows_rehydrate (model : Model) :
    Prog.Follows seenStatement (tracedRehydrate tables model)
      (.pure (S := Statements Greetings) (model.rehydrate tables)) := by
  unfold tracedRehydrate Model.rehydrate
  cases SenderName.new tables model.sender with
  | error source => exact Prog.follows_noting (fun _ => rfl) (.pure _)
  | ok sender =>
    simp only
    cases u32TryFrom model.timesGreeted with
    | none => exact Prog.follows_noting (fun _ => rfl) (.pure _)
    | some timesGreeted => exact .pure _

theorem follows_findBySender (sender : SenderName tables) :
    Prog.Follows seenStatement (tracedFindBySender sender) (findBySender sender) := by
  refine Prog.follows_inSpan (fun _ => rfl) (follows_inspected fun row => ?_)
  cases row with
  | none => exact .pure _
  | some model => exact (follows_rehydrate model).bind fun _ => .pure _

theorem follows_add (greeting : Greeting tables) :
    Prog.Follows seenStatement (tracedAdd uniqueViolation greeting)
      (add uniqueViolation greeting) := by
  refine Prog.follows_inSpan (fun _ => rfl) ?_
  refine .call (Except.mapError Failure.toDbErr) mapError_surjective (fun _ => rfl) fun reply => ?_
  cases reply with
  | ok => exact .pure _
  | error source =>
    have hrefused : ∀ unique : Bool, Prog.Follows seenStatement
        (if unique then Prog.noting (historyExists source)
            (.pure (.error (RepositoryError.rejected AddGreetingRejection.alreadyExists)))
          else Prog.noting (logDatabaseError source) (.pure (.error (.ofDbErr source.toDbErr))))
        (.pure (S := Statements Greetings) (α := Except _ Unit) (.error (if unique then
          .rejected .alreadyExists else RepositoryError.ofDbErr source.toDbErr))) := by
      intro unique
      cases unique with
      | true => exact Prog.follows_noting (fun _ => rfl) (.pure _)
      | false => exact Prog.follows_noting (fun _ => rfl) (.pure _)
    exact hrefused (uniqueViolation source.toDbErr)

theorem follows_update (greeting : Greeting tables) :
    Prog.Follows seenStatement (tracedUpdate greeting) (update greeting) :=
  Prog.follows_inSpan (fun _ => rfl) (follows_inspected fun _ => .pure _)

theorem follows_attempt (sender : SenderName tables) :
    Prog.Follows seenCall (tracedAttempt uniqueViolation sender)
      (attempt uniqueViolation sender) := by
  refine follows_run ((follows_findBySender sender).orReturn fun found => ?_)
  cases found with
  | some greeting => exact (follows_update _).orReturn fun _ => .pure _
  | none => exact (follows_add _).orReturn fun _ => .pure _

/-- The loop counts its attempts and tells of them, which is not seen. -/
theorem follows_retry {α : Type}
    {body' : Prog (Telltale (Driver Greetings)) (Except GreetError (Greeting tables))}
    {body : Prog (Tx Greetings) (Except GreetError (Greeting tables))}
    (h : Prog.Follows seenCall body' body)
    {rest' : Except GreetError (Greeting tables) × Nat → Prog (Telltale (Driver Greetings)) α}
    {rest : Except GreetError (Greeting tables) → Prog (Tx Greetings) α}
    (hrest : ∀ outcome attempts, Prog.Follows seenCall (rest' (outcome, attempts)) (rest outcome))
    (attempt left : Nat) :
    Prog.Follows seenCall ((tracedRetry body' attempt left).bind rest')
      ((Prog.retry isConflict body left).bind rest) := by
  induction left generalizing attempt with
  | zero =>
    unfold tracedRetry Prog.retry
    rw [Prog.bind_assoc]
    exact h.bind fun outcome => hrest outcome attempt
  | succ left ih =>
    unfold tracedRetry Prog.retry
    rw [Prog.bind_assoc, Prog.bind_assoc]
    refine h.bind fun outcome => ?_
    cases isConflict outcome with
    | true => exact Prog.follows_noting (fun _ => rfl) (ih (attempt + 1))
    | false => exact hrest outcome attempt

/-- A call tells without doing anything else than it does. -/
theorem follows_execute (input : String) :
    Prog.Follows seenCall (tracedExecute tables uniqueViolation input)
      (execute tables uniqueViolation input) := by
  refine Prog.follows_inSpan (fun _ => rfl) ?_
  refine Prog.Follows.bind_silent ?_ fun result => ?_
  · unfold tracedBody execute
    cases SenderName.new tables input with
    | error error => exact Prog.follows_noting (fun _ => rfl) (.pure _)
    | ok sender =>
      refine follows_retry (follows_attempt sender) (fun outcome attempts => ?_) 1 _
      refine Prog.follows_noting (fun _ => rfl) ?_
      cases outcome with
      | error error => exact .pure _
      | ok greeting => exact Prog.follows_notingAll (fun _ => rfl) (.pure _)
  · cases result with
    | ok output => exact .pure _
    | error error => exact Prog.follows_noting (fun _ => rfl) (.pure _)

theorem follows_greet (request : String) :
    Prog.Follows seenCall (tracedGreet tables uniqueViolation request)
      (greet tables uniqueViolation request) :=
  Prog.follows_inSpan (fun _ => rfl) ((follows_execute request).orReturn fun _ => .pure _)

/-! ## What is told well -/

/-- What is due of the row that a lookup has found. -/
def rowNotes (tables : UnicodeTables) (model : Model) : List Note :=
  match SenderName.new tables model.sender with
  | .error source => [badSender source]
  | .ok _ => if u32TryFrom model.timesGreeted = none then [badCount] else []

/-- What the repository tells of its statements. Where no other note is named none may be
    told. -/
def greetCustoms (tables : UnicodeTables) (uniqueViolation : DbErr → Bool)
    (may : List Span → Note → Prop) : Customs Greetings where
  spanOf
    | .find sender => findSpan sender
    | .write kind model => writeSpan kind model
  due
    | ⟨.find _, .error source⟩ => [logDatabaseError source]
    | ⟨.find _, .ok none⟩ => []
    | ⟨.find _, .ok (some model)⟩ => rowNotes tables model
    | ⟨.write .insert _, .error source⟩ =>
      [if uniqueViolation source.toDbErr then historyExists source else logDatabaseError source]
    | ⟨.write .update _, .error source⟩ => [logDatabaseError source]
    | ⟨.write _ _, .ok ()⟩ => []
  may := may

section Told

variable {may : List Span → Note → Prop} {outer : List Span}

theorem told_rehydrate {sender : String} {model : Model} {spans : List Span}
    {log : List (Event (Telltale (Attempts Greetings)))}
    {found : Except (RepositoryError Empty) (Greeting tables)}
    (hwithin : (greetCustoms tables uniqueViolation may).statements.within spans (.find sender))
    (h : Prog.Runs (tracedRehydrate tables model) log found) :
    Told (greetCustoms tables uniqueViolation may).statements spans
      (calling ⟨.find sender, .ok (some model)⟩ :: log) := by
  unfold tracedRehydrate at h
  cases hname : SenderName.new tables model.sender with
  | error source =>
    rw [hname] at h
    obtain ⟨after, rfl, hend⟩ := Prog.runs_noting_iff.mp h
    obtain ⟨rfl, _⟩ := Prog.runs_pure_iff.mp hend
    refine .call_one hwithin ?_ (.nil _)
    show rowNotes tables model = _
    simp only [rowNotes, hname]
  | ok sender' =>
    simp only [hname] at h
    cases hcount : u32TryFrom model.timesGreeted with
    | none =>
      rw [hcount] at h
      obtain ⟨after, rfl, hend⟩ := Prog.runs_noting_iff.mp h
      obtain ⟨rfl, _⟩ := Prog.runs_pure_iff.mp hend
      refine .call_one hwithin ?_ (.nil _)
      show rowNotes tables model = _
      simp only [rowNotes, hname, hcount, if_true]
    | some count =>
      rw [hcount] at h
      obtain ⟨rfl, _⟩ := Prog.runs_pure_iff.mp h
      refine .call_quiet hwithin ?_ (.nil _)
      show rowNotes tables model = _
      simp [rowNotes, hname, hcount]

theorem told_findBySender {sender : SenderName tables}
    {log : List (Event (Telltale (Attempts Greetings)))}
    {found : Except (RepositoryError Empty) (Option (Greeting tables))}
    (h : Prog.Runs (tracedFindBySender sender) log found) :
    Told (greetCustoms tables uniqueViolation may).statements (transactionSpan :: outer) log := by
  obtain ⟨inside, rfl, hinside⟩ := Prog.runs_inSpan_iff.mp h
  refine .span ?_ (.nil _)
  have hwithin : (greetCustoms tables uniqueViolation may).statements.within
      (findSpan sender.asStr :: transactionSpan :: outer) (.find sender.asStr) := ⟨outer, rfl⟩
  refine told_inspected hwithin ?_ ?_ hinside
  · intro reply source hreply
    obtain rfl : reply = .error source := hreply
    rfl
  · intro reply row after hreply hafter
    obtain rfl : reply = .ok row := hreply
    cases row with
    | none =>
      obtain ⟨rfl, _⟩ := Prog.runs_pure_iff.mp hafter
      exact .call_quiet hwithin rfl (.nil _)
    | some model =>
      obtain ⟨before, last, result, rfl, hrow, hlast⟩ := Prog.runs_bind_iff.mp hafter
      obtain ⟨rfl, _⟩ := Prog.runs_pure_iff.mp hlast
      rw [List.append_nil]
      exact told_rehydrate hwithin hrow

theorem told_add {greeting : Greeting tables}
    {log : List (Event (Telltale (Attempts Greetings)))}
    {result : Except (RepositoryError AddGreetingRejection) Unit}
    (h : Prog.Runs (tracedAdd uniqueViolation greeting) log result) :
    Told (greetCustoms tables uniqueViolation may).statements (transactionSpan :: outer) log := by
  obtain ⟨inside, rfl, hinside⟩ := Prog.runs_inSpan_iff.mp h
  refine .span ?_ (.nil _)
  have hwithin : (greetCustoms tables uniqueViolation may).statements.within
      (writeSpan .insert greeting.toModel :: transactionSpan :: outer)
      (.write .insert greeting.toModel) := ⟨outer, rfl⟩
  obtain ⟨reply, after, rfl, hafter⟩ := Prog.runs_ask_bind_iff.mp hinside
  cases reply with
  | ok =>
    obtain ⟨rfl, _⟩ := Prog.runs_pure_iff.mp hafter
    exact .call_quiet hwithin rfl (.nil _)
  | error source =>
    cases hunique : uniqueViolation source.toDbErr with
    | true =>
      simp only [hunique, if_true] at hafter
      obtain ⟨after, rfl, hend⟩ := Prog.runs_noting_iff.mp hafter
      obtain ⟨rfl, _⟩ := Prog.runs_pure_iff.mp hend
      exact .call_one hwithin (by simp [Customs.statements, greetCustoms, hunique]) (.nil _)
    | false =>
      simp only [hunique, Bool.false_eq_true, if_false] at hafter
      obtain ⟨after, rfl, hend⟩ := Prog.runs_noting_iff.mp hafter
      obtain ⟨rfl, _⟩ := Prog.runs_pure_iff.mp hend
      exact .call_one hwithin (by simp [Customs.statements, greetCustoms, hunique]) (.nil _)

theorem told_update {greeting : Greeting tables}
    {log : List (Event (Telltale (Attempts Greetings)))}
    {result : Except (RepositoryError Empty) Unit}
    (h : Prog.Runs (tracedUpdate greeting) log result) :
    Told (greetCustoms tables uniqueViolation may).statements (transactionSpan :: outer) log := by
  obtain ⟨inside, rfl, hinside⟩ := Prog.runs_inSpan_iff.mp h
  refine .span ?_ (.nil _)
  have hwithin : (greetCustoms tables uniqueViolation may).statements.within
      (writeSpan .update greeting.toModel :: transactionSpan :: outer)
      (.write .update greeting.toModel) := ⟨outer, rfl⟩
  refine told_inspected hwithin ?_ ?_ hinside
  · intro reply source hreply
    obtain rfl : reply = .error source := hreply
    rfl
  · intro reply value after hreply hafter
    obtain rfl : reply = .ok value := hreply
    obtain ⟨rfl, _⟩ := Prog.runs_pure_iff.mp hafter
    exact .call_quiet hwithin rfl (.nil _)

theorem told_record {sender : SenderName tables} {found : Option (Greeting tables)}
    {log : List (Event (Telltale (Attempts Greetings)))}
    {outcome : Except GreetError (Greeting tables)}
    (h : Prog.Runs (tracedRecord uniqueViolation sender found) log outcome) :
    Told (greetCustoms tables uniqueViolation may).statements (transactionSpan :: outer) log := by
  have hreturn : ∀ (greeting : Greeting tables) log result,
      Prog.Runs (S := Telltale (Attempts Greetings)) (.pure (Except.ok (ε := GreetError) greeting))
        log result →
      Told (greetCustoms tables uniqueViolation may).statements (transactionSpan :: outer) log := by
    intro greeting log result hpure
    obtain ⟨rfl, _⟩ := Prog.runs_pure_iff.mp hpure
    exact .nil _
  cases found with
  | some greeting =>
    exact Told.orReturn (fun _ _ hupdate => told_update hupdate) (fun _ => hreturn _) h
  | none => exact Told.orReturn (fun _ _ hadd => told_add hadd) (fun _ => hreturn _) h

theorem told_work {sender : SenderName tables}
    {log : List (Event (Telltale (Attempts Greetings)))}
    {outcome : Except GreetError (Greeting tables)}
    (h : Prog.Runs (tracedWork uniqueViolation sender) log outcome) :
    Told (greetCustoms tables uniqueViolation may).statements (transactionSpan :: outer) log :=
  Told.orReturn (fun _ _ hfind => told_findBySender hfind)
    (fun _ _ _ hrecord => told_record hrecord) h

/-- An attempt is told well. -/
theorem told_attempt {sender : SenderName tables}
    {log : List (Event (Telltale (Driver Greetings)))}
    {outcome : Except GreetError (Greeting tables)}
    (h : Prog.Runs (tracedAttempt uniqueViolation sender) log outcome) :
    Told (greetCustoms tables uniqueViolation may).driver outer log :=
  told_run (fun _ _ hwork => told_work hwork) h

end Told

theorem isDiagnosis_of_rowNotes {model : Model} {note : Note} (h : note ∈ rowNotes tables model) :
    note.isDiagnosis = true := by
  unfold rowNotes at h
  cases hname : SenderName.new tables model.sender with
  | error source =>
    rw [hname] at h
    obtain rfl := List.mem_singleton.mp h
    simp [badSender, Note.isDiagnosis]
  | ok sender =>
    simp only [hname] at h
    split at h
    · obtain rfl := List.mem_singleton.mp h
      simp [badCount, Note.isDiagnosis]
    · cases h

/-- Whatever is due of a call is a diagnosis. -/
theorem isDiagnosis_of_due {may : List Span → Note → Prop} (event : Event (Driver Greetings))
    {note : Note} (h : note ∈ (greetCustoms tables uniqueViolation may).driver.due event) :
    note.isDiagnosis = true := by
  have hfailure : ∀ {source : Failure}, note ∈ [logDatabaseError source] →
      note.isDiagnosis = true := by
    intro source hnote
    rw [List.mem_singleton.mp hnote]
    exact isDiagnosis_logDatabaseError source
  obtain ⟨op, reply⟩ := event
  cases op with
  | begin =>
    cases reply with
    | ok => cases h
    | error source => exact hfailure h
  | commit =>
    cases reply with
    | ok => cases h
    | error source => exact hfailure h
  | rollback =>
    cases reply with
    | ok => cases h
    | error source =>
      obtain rfl := List.mem_singleton.mp h
      simp [rollbackFailed, Note.isDiagnosis]
  | statement op =>
    cases op with
    | find sender =>
      cases reply with
      | error source => exact hfailure h
      | ok row =>
        cases row with
        | none => cases h
        | some model => exact isDiagnosis_of_rowNotes h
    | write kind model =>
      cases reply with
      | ok => cases kind <;> cases h
      | error source =>
        cases kind with
        | update => exact hfailure h
        | insert =>
          obtain rfl := List.mem_singleton.mp h
          split
          · simp [historyExists, Note.isDiagnosis]
          · exact isDiagnosis_logDatabaseError source

/-- Among the notes of an attempt there are only diagnoses. -/
theorem isDiagnosis_of_attempt {sender : SenderName tables}
    {log : List (Event (Telltale (Driver Greetings)))}
    {outcome : Except GreetError (Greeting tables)}
    (h : Prog.Runs (tracedAttempt uniqueViolation sender) log outcome) :
    ∀ note ∈ notes log, note.isDiagnosis = true := by
  have htold : Told (greetCustoms tables uniqueViolation fun _ _ => False).driver [] log :=
    told_attempt h
  intro note hnote
  rw [htold.notes_eq fun _ _ hmay => hmay] at hnote
  obtain ⟨event, _, hdue⟩ := List.mem_flatMap.mp hnote
  exact isDiagnosis_of_due event hdue

end QuizArena.Greet
