import QuizArena.Greet.Usecase
import QuizArena.Kernel.Landing

/-!
# A request takes effect at most once

Every operation of every attempt may fail with any error. What a request answers says
what has become of its attempts: only the last one can have landed, an attempt before it
has always met a conflict, and rollbacks have no say.
-/

namespace QuizArena.Greet

open Lib Kernel

variable {tables : UnicodeTables} {uniqueViolation : DbErr → Bool}

/-- Whether the event is an operation that failed; rollbacks apart. -/
def fails : Event (Tx Greetings) → Bool
  | ⟨.begin, .error _⟩ => true
  | ⟨.statement _, .error _⟩ => true
  | ⟨.commit, .error _⟩ => true
  | _ => false

/-- Whether the event is an operation that failed with contention, or an add that failed
    with a violation of the unique key. -/
def conflicts (uniqueViolation : DbErr → Bool) : Event (Tx Greetings) → Bool
  | ⟨.begin, .error source⟩ => contended source
  | ⟨.statement (.write .insert _), .error source⟩ => uniqueViolation source || contended source
  | ⟨.statement _, .error source⟩ => contended source
  | ⟨.commit, .error source⟩ => contended source
  | _ => false

/-- The operations of an attempt that failed. -/
def failures (attempt : List (Entry Greetings)) : List (Event (Tx Greetings)) :=
  (attempt.map Entry.event).filter fails

/-- One operation of the attempt failed, with contention or a lost insert race. -/
def FailsWithConflict (uniqueViolation : DbErr → Bool) (attempt : List (Entry Greetings)) : Prop :=
  ∃ event, failures attempt = [event] ∧ conflicts uniqueViolation event = true

/-- One operation of the attempt failed, with any other error. -/
def FailsOtherwise (uniqueViolation : DbErr → Bool) (attempt : List (Entry Greetings)) : Prop :=
  ∃ event, failures attempt = [event] ∧ conflicts uniqueViolation event = false

/-- No operation of the attempt failed, but it read a row that breaks the rules of the
    domain. -/
def ReadsInvalidRow (tables : UnicodeTables) (attempt : List (Entry Greetings)) : Prop :=
  failures attempt = [] ∧ ∃ sender model, model.rehydrate tables = .error .internal ∧
    ⟨.statement (.find sender), .ok (some model)⟩ ∈ attempt.map Entry.event

/-- What a history and the answer of its request say about each other. -/
structure AtMostOnce (tables : UnicodeTables) (uniqueViolation : DbErr → Bool) (request : String)
    (history : List (Entry Greetings)) (answer : Except ConnectError GreetResponse) : Prop where
  landsOnce : history.countP Entry.landed ≤ 1
  stops : ∀ earlier attempt later, attempts history = earlier ++ attempt :: later →
    (∃ entry ∈ attempt, mayLand entry.event = true) → later = []
  greets : ∀ response, answer = .ok response → history.countP Entry.landed = 1 ∧
    ∃ earlier last, attempts history = earlier ++ [last] ∧ ∃ entry ∈ last, entry.landed = true
  aborts : ∀ message, answer = .error ⟨.aborted, message⟩ → history.countP Entry.landed = 0 ∧
    (attempts history).length = maxAttempts ∧
      ∀ attempt ∈ attempts history, FailsWithConflict uniqueViolation attempt
  failsInternally : ∀ message, answer = .error ⟨.internal, message⟩ →
    ∃ earlier last, attempts history = earlier ++ [last] ∧
      (FailsOtherwise uniqueViolation last ∨ ReadsInvalidRow tables last) ∧
      ∀ attempt ∈ earlier, FailsWithConflict uniqueViolation attempt ∧
        ∀ entry ∈ attempt, entry.landed = false
  refuses_iff : (∃ message, answer = .error ⟨.invalidArgument, message⟩) ↔
    ∃ error, SenderName.new tables request = .error error
  refuses : ∀ message, answer = .error ⟨.invalidArgument, message⟩ → history = []
  ignoresRollback : ∀ log, Prog.SameBut (· = TxOp.rollback) (history.map Entry.event) log →
    Prog.Runs (greet tables uniqueViolation request) log answer

/-! ## One attempt -/

theorem GreetError.ofDbErr_eq_conflict {source : DbErr} :
    GreetError.ofDbErr source = .conflict ↔ contended source = true := by
  unfold GreetError.ofDbErr
  split <;> simp_all

theorem GreetError.ofWriteErr_eq_conflict {kind : WriteKind} {model : Model} {source : DbErr} :
    GreetError.ofWriteErr uniqueViolation kind source = .conflict ↔
      conflicts uniqueViolation ⟨.statement (.write kind model), .error source⟩ = true := by
  cases kind with
  | insert =>
    show (if uniqueViolation source then GreetError.conflict else .ofDbErr source) = .conflict ↔
      (uniqueViolation source || contended source) = true
    by_cases hunique : uniqueViolation source = true
    · simp [hunique]
    · simp [hunique, GreetError.ofDbErr_eq_conflict]
  | update => exact GreetError.ofDbErr_eq_conflict

/-- What an attempt has failed with. -/
theorem AttemptRun.failure {sender : SenderName tables} {log : List (Event (Tx Greetings))}
    {error : GreetError} (h : AttemptRun uniqueViolation sender log (.error error)) :
    (∃ event, log.filter fails = [event] ∧
        (error = .conflict ↔ conflicts uniqueViolation event = true)) ∨
      (error = .internal ∧ log.filter fails = [] ∧
        ∃ model, model.rehydrate tables = .error .internal ∧
          ⟨.statement (.find sender.asStr), .ok (some model)⟩ ∈ log) := by
  cases h with
  | beginFails source => exact Or.inl ⟨_, rfl, GreetError.ofDbErr_eq_conflict⟩
  | findFails source reply => exact Or.inl ⟨_, rfl, GreetError.ofDbErr_eq_conflict⟩
  | unreadable reply hrow =>
    obtain ⟨_, model, rfl, hmodel⟩ := rehydrateRow_error hrow
    exact Or.inr ⟨rfl, rfl, model, hmodel, by simp⟩
  | writeFails source reply hrow => exact Or.inl ⟨_, rfl, GreetError.ofWriteErr_eq_conflict⟩
  | commitFails source hrow => exact Or.inl ⟨_, rfl, GreetError.ofDbErr_eq_conflict⟩

/-- Nothing of an attempt can land but its last event, and not after a conflict. -/
theorem AttemptRun.landing {sender : SenderName tables} {log : List (Event (Tx Greetings))}
    {outcome : Except GreetError (Greeting tables)}
    (h : AttemptRun uniqueViolation sender log outcome) :
    ∃ front last, log = front ++ [last] ∧ (∀ event ∈ front, mayLand event = false) ∧
      (outcome = .error .conflict → mayLand last = false) := by
  cases h with
  | beginFails source => exact ⟨[], _, rfl, by simp, fun _ => rfl⟩
  | findFails source reply => exact ⟨[_, _], _, rfl, by simp [mayLand], fun _ => rfl⟩
  | unreadable reply hrow => exact ⟨[_, _], _, rfl, by simp [mayLand], fun _ => rfl⟩
  | writeFails source reply hrow => exact ⟨[_, _, _], _, rfl, by simp [mayLand], fun _ => rfl⟩
  | commitFails source hrow =>
    refine ⟨[_, _, _], _, rfl, by simp [mayLand], ?_⟩
    intro houtcome
    have hsource := GreetError.ofDbErr_eq_conflict.mp (Except.error.inj houtcome)
    show (!contended source) = false
    rw [hsource]
    rfl
  | commits hrow =>
    refine ⟨[_, _, _], _, rfl, by simp [mayLand], ?_⟩
    intro houtcome
    cases houtcome

theorem AttemptRun.begins {sender : SenderName tables} {log : List (Event (Tx Greetings))}
    {outcome : Except GreetError (Greeting tables)}
    (h : AttemptRun uniqueViolation sender log outcome) :
    ∃ first rest, log = first :: rest ∧ isBegin first = true ∧
      ∀ event ∈ rest, isBegin event = false := by
  cases h with
  | beginFails | findFails | unreadable | writeFails | commitFails | commits =>
    exact ⟨_, _, rfl, rfl, by simp [isBegin]⟩

theorem AttemptRun.isAttempt {sender : SenderName tables} {attempt : List (Entry Greetings)}
    {outcome : Except GreetError (Greeting tables)}
    (h : AttemptRun uniqueViolation sender (attempt.map Entry.event) outcome) :
    IsAttempt attempt := by
  obtain ⟨first, rest, heq, hfirst, hrest⟩ := h.begins
  obtain ⟨entry, entries, rfl, rfl, rfl⟩ := List.map_eq_cons_iff.mp heq
  exact ⟨entry, entries, rfl, hfirst, fun e he => hrest _ (List.mem_map_of_mem he)⟩

/-- An attempt that ends with a greeting has landed. -/
theorem AttemptRun.landed {sender : SenderName tables} {attempt : List (Entry Greetings)}
    {greeting : Greeting tables} {failed : Bool} (hlawful : Lawful failed attempt)
    (h : AttemptRun uniqueViolation sender (attempt.map Entry.event) (.ok greeting)) :
    ∃ entry ∈ attempt, entry.landed = true := by
  have hlog : ∃ row found, rehydrateRow tables row = .ok found ∧ attempt.map Entry.event =
      [⟨.begin, .ok ()⟩, ⟨.statement (.find sender.asStr), .ok row⟩,
        ⟨.statement (recordOp sender found), .ok ()⟩, ⟨.commit, .ok ()⟩] := by
    generalize attempt.map Entry.event = log at h
    cases h with
    | commits hrow => exact ⟨_, _, hrow, rfl⟩
  obtain ⟨row, found, _, heq⟩ := hlog
  obtain ⟨first, rest, rfl, hfirst, heq⟩ := List.map_eq_cons_iff.mp heq
  obtain ⟨find, rest, rfl, hfind, heq⟩ := List.map_eq_cons_iff.mp heq
  obtain ⟨write, rest, rfl, hwrite, heq⟩ := List.map_eq_cons_iff.mp heq
  obtain ⟨last, rest, rfl, hlast, _⟩ := List.map_eq_cons_iff.mp heq
  refine ⟨last, by simp, ?_⟩
  apply hlawful.2.2.2.2.2.2.2.1
  · rw [hfirst, hfind, hwrite]
    rfl
  · rw [hlast]
    rfl

theorem AttemptRun.countP_landed {sender : SenderName tables} {attempt : List (Entry Greetings)}
    {outcome : Except GreetError (Greeting tables)} {failed : Bool}
    (hlawful : Lawful failed attempt)
    (h : AttemptRun uniqueViolation sender (attempt.map Entry.event) outcome) :
    attempt.countP Entry.landed ≤ 1 := by
  obtain ⟨front, last, heq, hfront, _⟩ := h.landing
  obtain ⟨before, after, rfl, rfl, hafter⟩ := List.map_eq_append_iff.mp heq
  have hbefore : before.countP Entry.landed = 0 := by
    rw [List.countP_eq_zero]
    intro entry hentry hlanded
    have hmay := mayLand_of_landed hlawful (List.mem_append_left _ hentry) hlanded
    rw [hfront _ (List.mem_map_of_mem hentry)] at hmay
    cases hmay
  have hlength : after.length = 1 := by
    rw [← List.length_map (f := Entry.event), hafter, List.length_singleton]
  have hle : after.countP Entry.landed ≤ after.length := List.countP_le_length
  rw [List.countP_append]
  omega

/-- Nothing lands in an attempt that meets a conflict. -/
theorem AttemptRun.mayLand_conflict {sender : SenderName tables}
    {log : List (Event (Tx Greetings))}
    (h : AttemptRun uniqueViolation sender log (.error .conflict)) :
    ∀ event ∈ log, mayLand event = false := by
  obtain ⟨front, last, rfl, hfront, hlast⟩ := h.landing
  intro event hevent
  rcases List.mem_append.mp hevent with hevent | hevent
  · exact hfront event hevent
  · rw [List.mem_singleton.mp hevent]
    exact hlast rfl

theorem AttemptRun.failsWithConflict {sender : SenderName tables}
    {attempt : List (Entry Greetings)}
    (h : AttemptRun uniqueViolation sender (attempt.map Entry.event) (.error .conflict)) :
    FailsWithConflict uniqueViolation attempt := by
  rcases h.failure with ⟨event, hevent, hconflict⟩ | ⟨hinternal, _⟩
  · exact ⟨event, hevent, hconflict.mp rfl⟩
  · cases hinternal

theorem AttemptRun.failsOtherwise {sender : SenderName tables} {attempt : List (Entry Greetings)}
    (h : AttemptRun uniqueViolation sender (attempt.map Entry.event) (.error .internal)) :
    FailsOtherwise uniqueViolation attempt ∨ ReadsInvalidRow tables attempt := by
  rcases h.failure with ⟨event, hevent, hconflict⟩ | ⟨_, hnone, model, hmodel, hread⟩
  · left
    refine ⟨event, hevent, ?_⟩
    rw [Bool.eq_false_iff]
    intro htrue
    cases hconflict.mpr htrue
  · exact Or.inr ⟨hnone, _, model, hmodel, hread⟩

/-! ## A request -/

/-- A history of attempts: the earlier ones met a conflict, the last ended as it did. -/
structure Tried (uniqueViolation : DbErr → Bool) (sender : SenderName tables)
    (history : List (Entry Greetings)) (earlier : List (List (Entry Greetings)))
    (last : List (Entry Greetings)) (outcome : Except GreetError (Greeting tables)) : Prop where
  history_eq : history = earlier.flatten ++ last
  conflicts : ∀ attempt ∈ earlier,
    AttemptRun uniqueViolation sender (attempt.map Entry.event) (.error .conflict)
  ends : AttemptRun uniqueViolation sender (last.map Entry.event) outcome
  spent : outcome = .error .conflict → earlier.length + 1 = maxAttempts
  lawful : Lawful false history

namespace Tried

variable {sender : SenderName tables} {history : List (Entry Greetings)}
  {earlier : List (List (Entry Greetings))} {last : List (Entry Greetings)}
  {outcome : Except GreetError (Greeting tables)}

theorem attempts_eq (h : Tried uniqueViolation sender history earlier last outcome) :
    attempts history = earlier ++ [last] := by
  have hflatten : history = (earlier ++ [last]).flatten := by
    rw [List.flatten_append, h.history_eq, List.flatten_singleton]
  rw [hflatten]
  apply attempts_flatten
  intro attempt hattempt
  rcases List.mem_append.mp hattempt with hattempt | hattempt
  · exact (h.conflicts attempt hattempt).isAttempt
  · rw [List.mem_singleton.mp hattempt]
    exact h.ends.isAttempt

theorem mayLand_earlier (h : Tried uniqueViolation sender history earlier last outcome) :
    ∀ attempt ∈ earlier, ∀ entry ∈ attempt, mayLand entry.event = false := by
  intro attempt hattempt entry hentry
  exact (h.conflicts attempt hattempt).mayLand_conflict _ (List.mem_map_of_mem hentry)

theorem landed_earlier (h : Tried uniqueViolation sender history earlier last outcome) :
    ∀ attempt ∈ earlier, ∀ entry ∈ attempt, entry.landed = false := by
  intro attempt hattempt entry hentry
  rw [Bool.eq_false_iff]
  intro hlanded
  have hmem : entry ∈ history := by
    rw [h.history_eq]
    exact List.mem_append_left _ (List.mem_flatten_of_mem hattempt hentry)
  have hmay := mayLand_of_landed h.lawful hmem hlanded
  rw [h.mayLand_earlier attempt hattempt entry hentry] at hmay
  cases hmay

theorem countP_landed (h : Tried uniqueViolation sender history earlier last outcome) :
    history.countP Entry.landed = last.countP Entry.landed := by
  have hearlier : earlier.flatten.countP Entry.landed = 0 := by
    rw [List.countP_eq_zero]
    intro entry hentry hlanded
    obtain ⟨attempt, hattempt, hentry⟩ := List.mem_flatten.mp hentry
    rw [h.landed_earlier attempt hattempt entry hentry] at hlanded
    cases hlanded
  rw [h.history_eq, List.countP_append, hearlier, Nat.zero_add]

theorem lawful_last (h : Tried uniqueViolation sender history earlier last outcome) :
    ∃ failed, Lawful failed last := by
  have hlawful := h.lawful
  rw [h.history_eq] at hlawful
  exact ⟨_, (lawful_append.mp hlawful).2⟩

/-- The attempt after which there is another one is not the last. -/
theorem stops (h : Tried uniqueViolation sender history earlier last outcome)
    {before after : List (List (Entry Greetings))} {attempt : List (Entry Greetings)}
    (heq : attempts history = before ++ attempt :: after)
    (hmay : ∃ entry ∈ attempt, mayLand entry.event = true) : after = [] := by
  rw [h.attempts_eq] at heq
  rcases List.eq_nil_or_concat after with hnil | ⟨front, final, hconcat⟩
  · exact hnil
  · exfalso
    rw [hconcat, List.concat_eq_append, ← List.cons_append, ← List.append_assoc] at heq
    have hearlier := List.append_inj_left' heq rfl
    obtain ⟨entry, hentry, htrue⟩ := hmay
    have hmem : attempt ∈ earlier := by
      rw [hearlier]
      simp
    rw [h.mayLand_earlier attempt hmem entry hentry] at htrue
    cases htrue

theorem countP_landed_le (h : Tried uniqueViolation sender history earlier last outcome) :
    history.countP Entry.landed ≤ 1 := by
  obtain ⟨failed, hlawful⟩ := h.lawful_last
  rw [h.countP_landed]
  exact h.ends.countP_landed hlawful

/-- A greeting is told once it has landed. -/
theorem landed {greeting : Greeting tables}
    (h : Tried uniqueViolation sender history earlier last (.ok greeting)) :
    history.countP Entry.landed = 1 ∧ ∃ entry ∈ last, entry.landed = true := by
  obtain ⟨failed, hlawful⟩ := h.lawful_last
  obtain ⟨entry, hentry, hlanded⟩ := h.ends.landed hlawful
  have hpos : 0 < history.countP Entry.landed := by
    rw [h.countP_landed]
    exact List.countP_pos_iff.mpr ⟨entry, hentry, hlanded⟩
  have hle := h.countP_landed_le
  exact ⟨by omega, entry, hentry, hlanded⟩

/-- Nothing has landed when every attempt met a conflict. -/
theorem countP_landed_conflict
    (h : Tried uniqueViolation sender history earlier last (.error .conflict)) :
    history.countP Entry.landed = 0 := by
  obtain ⟨failed, hlawful⟩ := h.lawful_last
  rw [h.countP_landed, List.countP_eq_zero]
  intro entry hentry hlanded
  have hmay := mayLand_of_landed hlawful hentry hlanded
  rw [h.ends.mayLand_conflict _ (List.mem_map_of_mem hentry)] at hmay
  cases hmay

theorem failsWithConflict
    (h : Tried uniqueViolation sender history earlier last (.error .conflict)) :
    ∀ attempt ∈ attempts history, FailsWithConflict uniqueViolation attempt := by
  intro attempt hattempt
  rw [h.attempts_eq] at hattempt
  rcases List.mem_append.mp hattempt with hattempt | hattempt
  · exact (h.conflicts attempt hattempt).failsWithConflict
  · rw [List.mem_singleton.mp hattempt]
    exact h.ends.failsWithConflict

/-- The answer to a request that tried says how its last attempt ended. -/
theorem atMostOnce {request : String} {answer : Except ConnectError GreetResponse}
    (h : Tried uniqueViolation sender history earlier last outcome)
    (hname : SenderName.new tables request = .ok sender)
    (hruns : Prog.Runs (greet tables uniqueViolation request) (history.map Entry.event) answer)
    (hgreets : ∀ response, answer = .ok response → ∃ greeting, outcome = .ok greeting)
    (haborts : ∀ message, answer = .error ⟨.aborted, message⟩ → outcome = .error .conflict)
    (hinternal : ∀ message, answer = .error ⟨.internal, message⟩ → outcome = .error .internal)
    (hrefuses : ∀ message, answer ≠ .error ⟨.invalidArgument, message⟩) :
    AtMostOnce tables uniqueViolation request history answer where
  landsOnce := h.countP_landed_le
  stops _ _ _ := h.stops
  greets response hanswer := by
    obtain ⟨greeting, rfl⟩ := hgreets response hanswer
    obtain ⟨honce, hlanded⟩ := h.landed
    exact ⟨honce, earlier, last, h.attempts_eq, hlanded⟩
  aborts message hanswer := by
    obtain rfl := haborts message hanswer
    refine ⟨h.countP_landed_conflict, ?_, h.failsWithConflict⟩
    rw [h.attempts_eq, List.length_append, List.length_singleton]
    exact h.spent rfl
  failsInternally message hanswer := by
    obtain rfl := hinternal message hanswer
    refine ⟨earlier, last, h.attempts_eq, h.ends.failsOtherwise, ?_⟩
    intro attempt hattempt
    exact ⟨(h.conflicts attempt hattempt).failsWithConflict, h.landed_earlier attempt hattempt⟩
  refuses_iff := by
    apply iff_of_false
    · intro hrefused
      obtain ⟨message, hanswer⟩ := hrefused
      exact hrefuses message hanswer
    · intro hinvalid
      obtain ⟨error, herror⟩ := hinvalid
      rw [hname] at herror
      cases herror
  refuses message hanswer := absurd hanswer (hrefuses message)
  ignoresRollback log hsame := (ignores_greet tables uniqueViolation request).runs hruns hsame

end Tried

/-- A request takes effect at most once, and its answer says what became of it. -/
theorem greet_atMostOnce (tables : UnicodeTables) (uniqueViolation : DbErr → Bool)
    (request : String) (history : List (Entry Greetings))
    (answer : Except ConnectError GreetResponse) (hlawful : Lawful false history)
    (hruns : Prog.Runs (greet tables uniqueViolation request) (history.map Entry.event) answer) :
    AtMostOnce tables uniqueViolation request history answer := by
  obtain ⟨outcome, hexecute, rfl⟩ := executeRun_of_greet hruns
  generalize hlog : history.map Entry.event = log at hexecute
  cases hexecute with
  | @rejects error hname =>
    have hnil : history = [] := List.map_eq_nil_iff.mp hlog
    subst hnil
    refine ⟨by simp, ?_, ?_, ?_, ?_, ?_, fun _ _ => rfl,
      fun log hsame => (ignores_greet tables uniqueViolation request).runs hruns hsame⟩
    · intro earlier attempt later heq
      cases earlier <;> cases heq
    · intro response h
      cases h
    · intro message h
      cases h
    · intro message h
      cases h
    · exact iff_of_true ⟨_, rfl⟩ ⟨error, hname⟩
  | @tries sender logs lastLog outcome hname hearlier hlast hlength hspent =>
    obtain ⟨earlier, last, heq, rfl, rfl⟩ := history_eq_flatten hlog
    have htried : Tried uniqueViolation sender history earlier last outcome := by
      refine ⟨heq, ?_, hlast, ?_, hlawful⟩
      · intro attempt hattempt
        exact hearlier _ (List.mem_map_of_mem hattempt)
      · intro hconflict
        rw [← hspent hconflict, List.length_map]
    cases outcome with
    | ok greeting =>
      obtain ⟨response, hresponse⟩ :
          ∃ response, answerOf (Except.map recorded (.ok greeting)) = .ok response := by
        show ∃ response, respond (recorded greeting) = .ok response
        unfold recorded
        cases greeting.isReturning with
        | true => exact ⟨_, rfl⟩
        | false => exact ⟨_, rfl⟩
      rw [hresponse] at hruns ⊢
      exact htried.atMostOnce hname hruns (fun _ _ => ⟨greeting, rfl⟩) nofun nofun nofun
    | error error =>
      cases error with
      | conflict => exact htried.atMostOnce hname hruns nofun (fun _ _ => rfl) nofun nofun
      | internal => exact htried.atMostOnce hname hruns nofun nofun (fun _ _ => rfl) nofun

/-- A request that loses an insert race, cannot roll back and is told of a row in its
    second attempt. -/
def lostRace : List (Entry Greetings) :=
  [⟨⟨.begin, .ok ()⟩, false⟩, ⟨⟨.statement (.find "ada"), .ok none⟩, false⟩,
    ⟨⟨.statement (.write .insert ⟨"ada", 1⟩),
      .error (.query (.sqlxError (.database (.postgres "23505"))))⟩, false⟩,
    ⟨⟨.rollback, .error (.other "connection closed")⟩, false⟩,
    ⟨⟨.begin, .ok ()⟩, false⟩, ⟨⟨.statement (.find "ada"), .ok (some ⟨"ada", 1⟩)⟩, false⟩,
    ⟨⟨.statement (.write .update ⟨"ada", 2⟩), .ok ()⟩, false⟩, ⟨⟨.commit, .ok ()⟩, true⟩]

theorem greet_atMostOnce_lostRace :
    AtMostOnce .ascii sqlUnique "ada" lostRace (.ok ⟨"Welcome back, ada!"⟩) := by
  apply greet_atMostOnce
  · decide
  · exact .call (S := Tx Greetings) .begin (.ok ())
      (.call (S := Tx Greetings) (.statement (.find "ada")) (.ok none)
        (.call (S := Tx Greetings) (.statement (.write .insert ⟨"ada", 1⟩))
          (.error (.query (.sqlxError (.database (.postgres "23505")))))
          (.call (S := Tx Greetings) .rollback (.error (.other "connection closed"))
            (.call (S := Tx Greetings) .begin (.ok ())
              (.call (S := Tx Greetings) (.statement (.find "ada")) (.ok (some ⟨"ada", 1⟩))
                (.call (S := Tx Greetings) (.statement (.write .update ⟨"ada", 2⟩)) (.ok ())
                  (.call (S := Tx Greetings) .commit (.ok ()) (.pure _))))))))

end QuizArena.Greet
