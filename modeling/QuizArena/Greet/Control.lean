import QuizArena.Greet.Usecase

/-!
# The control points of a call

Between two statements a call of `execute` stands at one of six points. `ControlStep`
says how it gets from one to the next, and `step_program_iff` that this is what the
program does.
-/

namespace QuizArena.Greet

open Lib Kernel

variable {tables : UnicodeTables}

/-- Where a call with an accepted name stands: what it does next, and how many attempts
    are left after this one. -/
inductive Control (tables : UnicodeTables) where
  | begins (retries : Nat)
  | finds (retries : Nat)
  | writes (retries : Nat) (found : Option (Greeting tables))
  | commits (retries : Nat) (greeting : Greeting tables)
  | rollsBack (retries : Nat) (error : GreetError)
  | ends (outcome : Except GreetError GreetOutput)

/-- Where the outcome of an attempt leads. -/
def Control.after : Nat → Except GreetError (Greeting tables) → Control tables
  | _, .ok greeting => .ends (.ok (recorded greeting))
  | retries + 1, .error .conflict => .begins retries
  | _, .error error => .ends (.error error)

/-- Where the answer to the lookup leads. -/
def Control.afterFind (retries : Nat) :
    Except (RepositoryError Empty) (Option (Greeting tables)) → Control tables
  | .ok found => .writes retries found
  | .error _ => .rollsBack retries .internal

/-- How a call gets from one point to the next. -/
inductive ControlStep (uniqueViolation : DbErr → Bool) (sender : SenderName tables) :
    Control tables → Event (Tx Greetings) → Control tables → Prop where
  | beginFails (retries : Nat) (source : DbErr) :
      ControlStep uniqueViolation sender (.begins retries) ⟨.begin, .error source⟩
        (.after retries (.error (.ofDbErr source)))
  | begins (retries : Nat) :
      ControlStep uniqueViolation sender (.begins retries) ⟨.begin, .ok ()⟩ (.finds retries)
  | findFails (retries : Nat) (source : DbErr) :
      ControlStep uniqueViolation sender (.finds retries)
        ⟨.statement (.find sender.asStr), .error source⟩ (.rollsBack retries (.ofDbErr source))
  | unreadable {row : Option Model} {error : RepositoryError Empty} (retries : Nat) :
      rehydrateRow tables row = .error error →
      ControlStep uniqueViolation sender (.finds retries)
        ⟨.statement (.find sender.asStr), .ok row⟩ (.rollsBack retries .internal)
  | finds {row : Option Model} {found : Option (Greeting tables)} (retries : Nat) :
      rehydrateRow tables row = .ok found →
      ControlStep uniqueViolation sender (.finds retries)
        ⟨.statement (.find sender.asStr), .ok row⟩ (.writes retries found)
  | writeFails (retries : Nat) (found : Option (Greeting tables)) (source : DbErr) :
      ControlStep uniqueViolation sender (.writes retries found)
        ⟨.statement (recordOp sender found), .error source⟩
        (.rollsBack retries (.ofWriteErr uniqueViolation (writeKind found) source))
  | writes (retries : Nat) (found : Option (Greeting tables)) :
      ControlStep uniqueViolation sender (.writes retries found)
        ⟨.statement (recordOp sender found), .ok ()⟩
        (.commits retries (nextGreeting sender found))
  | commitFails (retries : Nat) (greeting : Greeting tables) (source : DbErr) :
      ControlStep uniqueViolation sender (.commits retries greeting) ⟨.commit, .error source⟩
        (.after retries (.error (.ofDbErr source)))
  | commits (retries : Nat) (greeting : Greeting tables) :
      ControlStep uniqueViolation sender (.commits retries greeting) ⟨.commit, .ok ()⟩
        (.ends (.ok (recorded greeting)))
  | rollsBack (retries : Nat) (error : GreetError) (reply : Except DbErr Unit) :
      ControlStep uniqueViolation sender (.rollsBack retries error) ⟨.rollback, reply⟩
        (.after retries (.error error))

section Program

variable (uniqueViolation : DbErr → Bool) (sender : SenderName tables)

/-- What follows an attempt: another one, or the report. -/
def resume (retries : Nat) (outcome : Except GreetError (Greeting tables)) :
    Prog (Tx Greetings) (Except GreetError GreetOutput) :=
  .orReturn id
    (match retries with
      | 0 => .pure outcome
      | retries + 1 =>
        if isConflict outcome then .retry isConflict (attempt uniqueViolation sender) retries
        else .pure outcome)
    fun greeting => .pure (.ok (recorded greeting))

/-- The rest of an attempt, and what follows it. -/
def restOfAttempt (retries : Nat)
    (rest : Prog (Statements Greetings) (Except GreetError (Greeting tables))) :
    Prog (Tx Greetings) (Except GreetError GreetOutput) :=
  ((boundTo rest).bind (settle GreetError.ofRepositoryError)).bind
    (resume uniqueViolation sender retries)

/-- What is left of the call at each point. -/
def Control.program : Control tables → Prog (Tx Greetings) (Except GreetError GreetOutput)
  | .begins retries => (attempt uniqueViolation sender).bind (resume uniqueViolation sender retries)
  | .finds retries => restOfAttempt uniqueViolation sender retries (work uniqueViolation sender)
  | .writes retries found =>
    restOfAttempt uniqueViolation sender retries (record uniqueViolation sender found)
  | .commits retries greeting =>
    restOfAttempt uniqueViolation sender retries (.pure (.ok greeting))
  | .rollsBack retries error =>
    restOfAttempt uniqueViolation sender retries (.pure (.error error))
  | .ends outcome => .pure outcome

/-- The attempts that are left, from their first on. -/
theorem retry_program (retries : Nat) :
    Prog.orReturn id (.retry isConflict (attempt uniqueViolation sender) retries)
        (fun greeting => .pure (.ok (recorded greeting))) =
      (Control.begins retries).program uniqueViolation sender := by
  cases retries with
  | zero =>
    show _ = (attempt uniqueViolation sender).bind (resume uniqueViolation sender 0)
    rfl
  | succ retries =>
    show ((attempt uniqueViolation sender).bind _).bind _ =
      (attempt uniqueViolation sender).bind (resume uniqueViolation sender (retries + 1))
    rw [Prog.bind_assoc]
    rfl

theorem resume_eq (retries : Nat) (outcome : Except GreetError (Greeting tables)) :
    resume uniqueViolation sender retries outcome =
      (Control.after retries outcome).program uniqueViolation sender := by
  cases outcome with
  | ok greeting => cases retries <;> rfl
  | error error =>
    cases error with
    | internal => cases retries <;> rfl
    | conflict =>
      cases retries with
      | zero => rfl
      | succ retries => exact retry_program uniqueViolation sender retries

/-- A call with an accepted name begins its first attempt. -/
theorem execute_eq {input : String} (h : SenderName.new tables input = .ok sender) :
    execute tables uniqueViolation input =
      (Control.begins (maxAttempts - 1)).program uniqueViolation sender := by
  rw [← retry_program, execute, h]
  rfl

theorem program_begins (retries : Nat) :
    (Control.begins retries).program uniqueViolation sender =
      .call (S := Tx Greetings) .begin fun
        | .ok () => (Control.finds retries).program uniqueViolation sender
        | .error source =>
          (Control.after retries (.error (.ofDbErr source))).program uniqueViolation sender := by
  show Prog.call (S := Tx Greetings) .begin _ = _
  congr 1
  funext reply
  cases reply with
  | ok => rfl
  | error source =>
    show resume uniqueViolation sender retries
      (.error (GreetError.ofRepositoryError (.ofDbErr source))) = _
    rw [GreetError.ofRepositoryError_ofDbErr, resume_eq]

theorem program_finds (retries : Nat) :
    (Control.finds retries).program uniqueViolation sender =
      .call (S := Tx Greetings) (.statement (.find sender.asStr)) fun
        | .ok row =>
          (Control.afterFind retries (rehydrateRow tables row)).program uniqueViolation sender
        | .error source =>
          (Control.rollsBack retries (.ofDbErr source)).program uniqueViolation sender := by
  show Prog.call (S := Tx Greetings) (.statement (.find sender.asStr)) _ = _
  congr 1
  funext reply
  cases reply with
  | ok row =>
    show restOfAttempt uniqueViolation sender retries
      (.orReturn GreetError.ofRepositoryError (.pure (rehydrateRow tables row))
        (record uniqueViolation sender)) =
      (Control.afterFind retries (rehydrateRow tables row)).program uniqueViolation sender
    cases hrow : rehydrateRow tables row with
    | ok found => rfl
    | error error =>
      have herror := (rehydrateRow_error hrow).1
      subst herror
      rfl
  | error source =>
    show restOfAttempt uniqueViolation sender retries
      (.pure (.error (GreetError.ofRepositoryError (.ofDbErr source)))) = _
    rw [GreetError.ofRepositoryError_ofDbErr]
    rfl

/-- The two arms of the `match` differ only in what they write and in what they make of
    an error. -/
theorem record_eq (found : Option (Greeting tables)) :
    record uniqueViolation sender found =
      .call (S := Statements Greetings) (recordOp sender found) fun
        | .ok () => .pure (.ok (nextGreeting sender found))
        | .error source =>
          .pure (.error (.ofWriteErr uniqueViolation (writeKind found) source)) := by
  cases found with
  | none =>
    show Prog.call (S := Statements Greetings) (recordOp sender none) _ = _
    congr 1
    funext reply
    cases reply with
    | ok => rfl
    | error source =>
      show Prog.pure (Except.error (GreetError.ofAddError (if uniqueViolation source then
        .rejected .alreadyExists else RepositoryError.ofDbErr source))) = _
      rw [GreetError.ofAddError_ofDbErr]
      rfl
  | some greeting =>
    show Prog.call (S := Statements Greetings) (recordOp sender (some greeting)) _ = _
    congr 1
    funext reply
    cases reply with
    | ok => rfl
    | error source =>
      show Prog.pure (Except.error (GreetError.ofRepositoryError (.ofDbErr source))) = _
      rw [GreetError.ofRepositoryError_ofDbErr]
      rfl

theorem program_writes (retries : Nat) (found : Option (Greeting tables)) :
    (Control.writes retries found).program uniqueViolation sender =
      .call (S := Tx Greetings) (.statement (recordOp sender found)) fun
        | .ok () =>
          (Control.commits retries (nextGreeting sender found)).program uniqueViolation sender
        | .error source =>
          (Control.rollsBack retries (.ofWriteErr uniqueViolation (writeKind found) source)).program
            uniqueViolation sender := by
  show restOfAttempt uniqueViolation sender retries (record uniqueViolation sender found) = _
  rw [record_eq]
  show Prog.call (S := Tx Greetings) (.statement (recordOp sender found)) _ = _
  congr 1
  funext reply
  cases reply with
  | ok => rfl
  | error source => rfl

theorem program_commits (retries : Nat) (greeting : Greeting tables) :
    (Control.commits retries greeting).program uniqueViolation sender =
      .call (S := Tx Greetings) .commit fun
        | .ok () => (Control.ends (.ok (recorded greeting))).program uniqueViolation sender
        | .error source =>
          (Control.after retries (.error (.ofDbErr source))).program uniqueViolation sender := by
  show Prog.call (S := Tx Greetings) .commit _ = _
  congr 1
  funext reply
  cases reply with
  | ok =>
    show resume uniqueViolation sender retries (.ok greeting) = _
    rw [resume_eq]
    rfl
  | error source =>
    show resume uniqueViolation sender retries
      (.error (GreetError.ofRepositoryError (.ofDbErr source))) = _
    rw [GreetError.ofRepositoryError_ofDbErr, resume_eq]

theorem program_rollsBack (retries : Nat) (error : GreetError) :
    (Control.rollsBack retries error).program uniqueViolation sender =
      .call (S := Tx Greetings) .rollback fun _ =>
        (Control.after retries (.error error)).program uniqueViolation sender := by
  show Prog.call (S := Tx Greetings) .rollback _ = _
  congr 1
  funext reply
  show resume uniqueViolation sender retries (.error error) = _
  rw [resume_eq]

end Program

/-- A call does what its control point says, and nothing else. -/
theorem step_program_iff {uniqueViolation : DbErr → Bool} {sender : SenderName tables}
    {control : Control tables} {event : Event (Tx Greetings)}
    {program : Prog (Tx Greetings) (Except GreetError GreetOutput)} :
    Prog.Step (control.program uniqueViolation sender) event program ↔
      ∃ control', ControlStep uniqueViolation sender control event control' ∧
        program = control'.program uniqueViolation sender := by
  constructor
  · intro h
    cases control with
    | begins retries =>
      rw [program_begins] at h
      obtain ⟨reply, rfl, rfl⟩ := Prog.step_call_iff.mp h
      cases reply with
      | ok => exact ⟨_, .begins retries, rfl⟩
      | error source => exact ⟨_, .beginFails retries source, rfl⟩
    | finds retries =>
      rw [program_finds] at h
      obtain ⟨reply, rfl, rfl⟩ := Prog.step_call_iff.mp h
      cases reply with
      | ok row =>
        cases hrow : rehydrateRow tables row with
        | ok found => exact ⟨_, .finds retries hrow, by simp only [hrow, Control.afterFind]⟩
        | error error => exact ⟨_, .unreadable retries hrow, by simp only [hrow, Control.afterFind]⟩
      | error source => exact ⟨_, .findFails retries source, rfl⟩
    | writes retries found =>
      rw [program_writes] at h
      obtain ⟨reply, rfl, rfl⟩ := Prog.step_call_iff.mp h
      cases reply with
      | ok => exact ⟨_, .writes retries found, rfl⟩
      | error source => exact ⟨_, .writeFails retries found source, rfl⟩
    | commits retries greeting =>
      rw [program_commits] at h
      obtain ⟨reply, rfl, rfl⟩ := Prog.step_call_iff.mp h
      cases reply with
      | ok => exact ⟨_, .commits retries greeting, rfl⟩
      | error source => exact ⟨_, .commitFails retries greeting source, rfl⟩
    | rollsBack retries error =>
      rw [program_rollsBack] at h
      obtain ⟨reply, rfl, rfl⟩ := Prog.step_call_iff.mp h
      exact ⟨_, .rollsBack retries error reply, rfl⟩
    | ends outcome => cases h
  · intro h
    obtain ⟨control', hstep, rfl⟩ := h
    cases hstep with
    | beginFails retries source =>
      rw [program_begins]
      exact .call (S := Tx Greetings) .begin _ (.error source)
    | begins retries =>
      rw [program_begins]
      exact .call (S := Tx Greetings) .begin _ (.ok ())
    | findFails retries source =>
      rw [program_finds]
      exact .call (S := Tx Greetings) (.statement _) _ (.error source)
    | @unreadable row error retries hrow =>
      rw [program_finds]
      refine Prog.step_call_iff.mpr ⟨.ok row, rfl, ?_⟩
      simp only [hrow, Control.afterFind]
    | @finds row found retries hrow =>
      rw [program_finds]
      refine Prog.step_call_iff.mpr ⟨.ok row, rfl, ?_⟩
      simp only [hrow, Control.afterFind]
    | writeFails retries found source =>
      rw [program_writes]
      exact .call (S := Tx Greetings) (.statement _) _ (.error source)
    | writes retries found =>
      rw [program_writes]
      exact Prog.step_call_iff.mpr ⟨.ok (), rfl, rfl⟩
    | commitFails retries greeting source =>
      rw [program_commits]
      exact .call (S := Tx Greetings) .commit _ (.error source)
    | commits retries greeting =>
      rw [program_commits]
      exact .call (S := Tx Greetings) .commit _ (.ok ())
    | rollsBack retries error reply =>
      rw [program_rollsBack]
      exact .call (S := Tx Greetings) .rollback _ reply

/-- Nothing is left of a call only when it has ended. -/
theorem program_eq_pure {uniqueViolation : DbErr → Bool} {sender : SenderName tables}
    {control : Control tables} {outcome : Except GreetError GreetOutput}
    (h : control.program uniqueViolation sender = .pure outcome) : control = .ends outcome := by
  cases control with
  | ends outcome' =>
    cases h
    rfl
  | begins retries =>
    rw [program_begins] at h
    cases h
  | finds retries =>
    rw [program_finds] at h
    cases h
  | writes retries found =>
    rw [program_writes] at h
    cases h
  | commits retries greeting =>
    rw [program_commits] at h
    cases h
  | rollsBack retries error =>
    rw [program_rollsBack] at h
    cases h

end QuizArena.Greet
