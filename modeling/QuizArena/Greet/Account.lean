import QuizArena.Greet.AtMostOnce
import QuizArena.Greet.Traced

/-!
# The account of a call

Whatever the driver answers, a request accounts for it: each failure is told once, right after it
is born and in its span, and beside the diagnoses the use case tells of its retries, of the number
of its attempts, and of the greeting that its last commit has recorded.
-/

namespace QuizArena.Greet

open Lib Kernel

variable {tables : UnicodeTables} {uniqueViolation : DbErr → Bool}

/-! ## What a call tells of itself -/

/-- The notes of `execute` itself: it tells no diagnosis, and records only what its span has
    declared. -/
def ownNote (spans : List Span) (note : Note) : Prop :=
  (∃ outer, spans = usecaseSpan :: outer) ∧ note.isDiagnosis = false ∧
    ∀ field value, note = .record field value → field ∈ usecaseSpan.fields.map Prod.fst

/-- Beside the diagnoses. -/
def ownNotes (log : List (Event (Telltale (Driver Greetings)))) : List Note :=
  (notes log).filter fun note => !note.isDiagnosis

@[simp] theorem ownNotes_append (log log' : List (Event (Telltale (Driver Greetings)))) :
    ownNotes (log ++ log') = ownNotes log ++ ownNotes log' := by
  rw [ownNotes, notes_append, List.filter_append]
  rfl

theorem ownNotes_note {note : Note} (h : note.isDiagnosis = false)
    (log : List (Event (Telltale (Driver Greetings)))) :
    ownNotes (telling (.note note) :: log) = note :: ownNotes log := by
  rw [ownNotes, notes_note, List.filter_cons_of_pos (by rw [h]; rfl)]
  rfl

theorem ownNotes_tellings {list : List Note} (h : ∀ note ∈ list, note.isDiagnosis = false)
    (log : List (Event (Telltale (Driver Greetings)))) :
    ownNotes (tellings list ++ log) = list ++ ownNotes log := by
  rw [ownNotes, notes_tellings, List.filter_append, List.filter_eq_self.mpr]
  · rfl
  · intro note hnote
    rw [h note hnote]
    rfl

theorem seen_tellings (list : List Note) (log : List (Event (Telltale (Driver Greetings)))) :
    (tellings list ++ log).filterMap seenCall = log.filterMap seenCall := by
  induction list with
  | nil => rfl
  | cons note list ih => exact ih

theorem ownNotes_of_attempt {sender : SenderName tables}
    {log : List (Event (Telltale (Driver Greetings)))}
    {outcome : Except GreetError (Greeting tables)}
    (h : Prog.Runs (tracedAttempt uniqueViolation sender) log outcome) : ownNotes log = [] := by
  rw [ownNotes, List.filter_eq_nil_iff]
  intro note hnote
  rw [isDiagnosis_of_attempt h note hnote]
  simp

theorem isDiagnosis_retrying (attempt : Nat) : (retrying attempt).isDiagnosis = false := by
  simp [retrying, Note.isDiagnosis]

theorem ownNote_retrying (attempt : Nat) (outer : List Span) :
    ownNote (usecaseSpan :: outer) (retrying attempt) :=
  ⟨⟨outer, rfl⟩, isDiagnosis_retrying attempt, fun _ _ h => by cases h⟩

/-! ## The loop -/

/-- What the loop tells from an attempt on, up to the last one. -/
structure RetryTold (tables : UnicodeTables) (uniqueViolation : DbErr → Bool)
    (attempt left : Nat) (log : List (Event (Telltale (Driver Greetings)))) (last : Nat) :
    Prop where
  told : ∀ outer,
    Told (greetCustoms tables uniqueViolation ownNote).driver (usecaseSpan :: outer) log
  retries : ownNotes log = (List.range' attempt (last - attempt)).map retrying
  begins : (log.filterMap seenCall).countP isBegin + attempt = last + 1
  le : attempt ≤ last
  most : last ≤ attempt + left

/-- An attempt begins one transaction. -/
theorem AttemptRun.countP_isBegin {sender : SenderName tables} {log : List (Event (Tx Greetings))}
    {outcome : Except GreetError (Greeting tables)}
    (h : AttemptRun uniqueViolation sender log outcome) : log.countP isBegin = 1 := by
  obtain ⟨first, rest, rfl, hfirst, hrest⟩ := h.begins
  rw [List.countP_cons_of_pos hfirst, List.countP_eq_zero.mpr (by simpa using hrest)]

theorem seen_attempt {sender : SenderName tables}
    {log : List (Event (Telltale (Driver Greetings)))}
    {outcome : Except GreetError (Greeting tables)}
    (h : Prog.Runs (tracedAttempt uniqueViolation sender) log outcome) :
    AttemptRun uniqueViolation sender (log.filterMap seenCall) outcome :=
  attemptRun_of_runs ((follows_attempt sender).runs h)

/-- One attempt that is the last. -/
theorem retryTold_last {sender : SenderName tables} {attempt left : Nat}
    {log : List (Event (Telltale (Driver Greetings)))}
    {outcome : Except GreetError (Greeting tables)}
    (h : Prog.Runs (tracedAttempt uniqueViolation sender) log outcome) :
    RetryTold tables uniqueViolation attempt left log attempt where
  told _ := told_attempt h
  retries := by rw [ownNotes_of_attempt h, Nat.sub_self]; rfl
  begins := by rw [(seen_attempt h).countP_isBegin, Nat.add_comm]
  le := Nat.le_refl attempt
  most := Nat.le_add_right attempt left

/-- By induction on the attempts that are left: each conflict is told with the number of its
    attempt, before the next one begins. -/
theorem told_retry {sender : SenderName tables} {attempt left last : Nat}
    {log : List (Event (Telltale (Driver Greetings)))}
    {outcome : Except GreetError (Greeting tables)}
    (h : Prog.Runs (tracedRetry (tracedAttempt uniqueViolation sender) attempt left) log
      (outcome, last)) : RetryTold tables uniqueViolation attempt left log last := by
  induction left generalizing attempt log with
  | zero =>
    obtain ⟨body, after, result, rfl, hbody, hafter⟩ := Prog.runs_bind_iff.mp h
    obtain ⟨rfl, hend⟩ := Prog.runs_pure_iff.mp hafter
    obtain ⟨rfl, rfl⟩ := Prod.mk.inj hend
    rw [List.append_nil]
    exact retryTold_last hbody
  | succ left ih =>
    obtain ⟨body, after, result, rfl, hbody, hafter⟩ := Prog.runs_bind_iff.mp h
    cases hagain : isConflict result with
    | false =>
      rw [hagain] at hafter
      obtain ⟨rfl, hend⟩ := Prog.runs_pure_iff.mp hafter
      obtain ⟨rfl, rfl⟩ := Prod.mk.inj hend
      rw [List.append_nil]
      exact retryTold_last hbody
    | true =>
      rw [hagain] at hafter
      obtain ⟨rest, rfl, hrest⟩ := Prog.runs_noting_iff.mp hafter
      obtain ⟨htold, hretries, hbegins, hle, hmost⟩ := ih hrest
      refine ⟨fun outer => ?_, ?_, ?_, by omega, by omega⟩
      · exact (told_attempt hbody).append (.note (ownNote_retrying attempt outer) (htold outer))
      · have hcount : last - attempt = last - (attempt + 1) + 1 := by omega
        rw [ownNotes_append, ownNotes_of_attempt hbody,
          ownNotes_note (isDiagnosis_retrying attempt), hretries, hcount, List.range'_succ]
        rfl
      · rw [List.filterMap_append, List.countP_append, (seen_attempt hbody).countP_isBegin,
          List.filterMap_cons_none rfl]
        omega

/-! ## What the driver has been asked -/

theorem AttemptRun.not_commitSucceeds {sender : SenderName tables}
    {log : List (Event (Tx Greetings))} {error : GreetError}
    (h : AttemptRun uniqueViolation sender log (.error error)) :
    ∀ event ∈ log, commitSucceeds event = false := by
  cases h with
  | beginFails | findFails | unreadable | writeFails | commitFails => simp [commitSucceeds]

/-- Before the last commit the greeting has been written. -/
theorem AttemptRun.written {sender : SenderName tables} {log : List (Event (Tx Greetings))}
    {greeting : Greeting tables} (h : AttemptRun uniqueViolation sender log (.ok greeting)) :
    ∃ before kind, log = before ++
        [⟨.statement (.write kind greeting.toModel), .ok ()⟩, ⟨.commit, .ok ()⟩] ∧
      ∀ event ∈ before, commitSucceeds event = false := by
  cases h with
  | @commits row found _ =>
    refine ⟨[⟨.begin, .ok ()⟩, ⟨.statement (.find sender.asStr), .ok row⟩], writeKind found,
      rfl, ?_⟩
    simp [commitSucceeds]

/-- The attempts that are seen of the loop. -/
theorem seen_retry {sender : SenderName tables} {attempt left last : Nat}
    {log : List (Event (Telltale (Driver Greetings)))}
    {outcome : Except GreetError (Greeting tables)}
    (h : Prog.Runs (tracedRetry (tracedAttempt uniqueViolation sender) attempt left) log
      (outcome, last)) :
    ∃ (earlier : List (List (Event (Tx Greetings)))) (final : List (Event (Tx Greetings))),
      log.filterMap seenCall = earlier.flatten ++ final ∧
      (∀ log ∈ earlier, AttemptRun uniqueViolation sender log (.error .conflict)) ∧
      AttemptRun uniqueViolation sender final outcome ∧
      (outcome = .error .conflict → earlier.length = left) := by
  have hfollows : Prog.Follows seenCall
      ((tracedRetry (tracedAttempt uniqueViolation sender) attempt left).bind fun ended =>
        .pure ended.1)
      ((Prog.retry isConflict (Greet.attempt uniqueViolation sender) left).bind .pure) :=
    follows_retry (follows_attempt sender) (fun _ _ => .pure _) attempt left
  have hruns := hfollows.runs (Prog.runs_bind_iff.mpr
    ⟨log, [], (outcome, last), (List.append_nil log).symm, h, .pure outcome⟩)
  obtain ⟨seen, after, result, hseen, hretry, hafter⟩ := Prog.runs_bind_iff.mp hruns
  obtain ⟨rfl, rfl⟩ := Prog.runs_pure_iff.mp hafter
  obtain ⟨earlier, final, rfl, hearlier, hfinal, _, hspent⟩ := Prog.runs_retry hretry
  refine ⟨earlier.map Prod.fst, final, by rw [hseen, List.append_nil], ?_,
    attemptRun_of_runs hfinal, ?_⟩
  · intro log hlog
    obtain ⟨attempt, hattempt, rfl⟩ := List.mem_map.mp hlog
    obtain ⟨hbody, hagain⟩ := hearlier attempt hattempt
    rw [isConflict_iff.mp hagain] at hbody
    exact attemptRun_of_runs hbody
  · intro hconflict
    rw [List.length_map, hspent (isConflict_iff.mpr hconflict)]

theorem countP_isBegin_flatten {sender : SenderName tables}
    {earlier : List (List (Event (Tx Greetings)))}
    (h : ∀ log ∈ earlier, AttemptRun uniqueViolation sender log (.error .conflict)) :
    earlier.flatten.countP isBegin = earlier.length := by
  induction earlier with
  | nil => rfl
  | cons first earlier ih =>
    rw [List.flatten_cons, List.countP_append, (h first List.mem_cons_self).countP_isBegin,
      ih fun log hlog => h log (List.mem_cons_of_mem _ hlog), List.length_cons, Nat.add_comm]

/-! ## The whole call -/

/-- What is told after the loop. -/
def endNotes (attempts : Nat) : Except GreetError (Greeting tables) → List Note
  | .error error => [.record "attempts" (.int attempts), returnsError error]
  | .ok greeting => .record "attempts" (.int attempts) :: recordedNotes greeting

/-- The runs of a call that tells. -/
inductive TracedRun (tables : UnicodeTables) (uniqueViolation : DbErr → Bool) (input : String) :
    List (Event (Telltale (Driver Greetings))) → Except GreetError GreetOutput → Prop where
  | rejects {error : SenderNameError} :
      SenderName.new tables input = .error error →
      TracedRun tables uniqueViolation input
        [telling (.opens usecaseSpan), telling (.note (rejected (.ofSenderNameError error))),
          telling (.closes usecaseSpan)]
        (.ok (.rejected (.ofSenderNameError error)))
  | tries {sender : SenderName tables} {log : List (Event (Telltale (Driver Greetings)))}
      {outcome : Except GreetError (Greeting tables)} {last : Nat} :
      SenderName.new tables input = .ok sender →
      Prog.Runs (tracedRetry (tracedAttempt uniqueViolation sender) 1 (maxAttempts - 1)) log
        (outcome, last) →
      TracedRun tables uniqueViolation input
        (telling (.opens usecaseSpan) ::
          (log ++ tellings (endNotes last outcome) ++ [telling (.closes usecaseSpan)]))
        (outcome.map recorded)

theorem tracedRun_of_runs {input : String} {log : List (Event (Telltale (Driver Greetings)))}
    {outcome : Except GreetError GreetOutput}
    (h : Prog.Runs (tracedExecute tables uniqueViolation input) log outcome) :
    TracedRun tables uniqueViolation input log outcome := by
  obtain ⟨inside, rfl, hinside⟩ := Prog.runs_inSpan_iff.mp h
  obtain ⟨body, after, result, rfl, hbody, hafter⟩ := Prog.runs_bind_iff.mp hinside
  unfold tracedBody at hbody
  cases hname : SenderName.new tables input with
  | error error =>
    rw [hname] at hbody
    obtain ⟨rest, rfl, hrest⟩ := Prog.runs_noting_iff.mp hbody
    obtain ⟨rfl, rfl⟩ := Prog.runs_pure_iff.mp hrest
    obtain ⟨rfl, rfl⟩ := Prog.runs_pure_iff.mp hafter
    exact .rejects hname
  | ok sender =>
    rw [hname] at hbody
    obtain ⟨tried, rest, ⟨recording, last⟩, rfl, htried, hrest⟩ := Prog.runs_bind_iff.mp hbody
    obtain ⟨rest, rfl, hending⟩ := Prog.runs_noting_iff.mp hrest
    have hend : telling (.note (.record "attempts" (.int last))) :: rest ++ after =
        tellings (endNotes last recording) ∧ outcome = recording.map recorded := by
      cases recording with
      | error error =>
        obtain ⟨rfl, rfl⟩ := Prog.runs_pure_iff.mp hending
        obtain ⟨rest, rfl, hlast⟩ := Prog.runs_noting_iff.mp hafter
        obtain ⟨rfl, rfl⟩ := Prog.runs_pure_iff.mp hlast
        exact ⟨rfl, rfl⟩
      | ok greeting =>
        obtain ⟨rest, rfl, hlast⟩ := Prog.runs_notingAll_iff.mp hending
        obtain ⟨rfl, rfl⟩ := Prog.runs_pure_iff.mp hlast
        obtain ⟨rfl, rfl⟩ := Prog.runs_pure_iff.mp hafter
        exact ⟨rfl, rfl⟩
    obtain ⟨hnotes, rfl⟩ := hend
    rw [List.append_assoc tried, hnotes]
    exact .tries hname htried

/-- What is told after the loop `execute` may tell. -/
theorem ownNote_endNotes {attempts : Nat} {outcome : Except GreetError (Greeting tables)}
    (outer : List Span) : ∀ note ∈ endNotes attempts outcome,
      ownNote (usecaseSpan :: outer) note := by
  intro note hnote
  refine ⟨⟨outer, rfl⟩, ?_⟩
  cases outcome with
  | error error =>
    simp only [endNotes, List.mem_cons, List.not_mem_nil, or_false] at hnote
    rcases hnote with rfl | rfl <;> simp [returnsError, Note.isDiagnosis, usecaseSpan]
  | ok greeting =>
    simp only [endNotes, recordedNotes, List.mem_cons, List.not_mem_nil, or_false] at hnote
    rcases hnote with rfl | rfl | rfl | rfl | rfl <;> simp [Note.isDiagnosis, usecaseSpan]

/-! ## The account -/

/-- Beside its diagnoses a call tells of its retries, and of how it has ended: that the name was
    refused, that no attempt was committed, or which greeting the last one has committed. -/
inductive Story (tables : UnicodeTables) (input : String) :
    List (Event (Tx Greetings)) → Except GreetError GreetOutput → List Note → Prop where
  | rejects {error : SenderNameError} :
      SenderName.new tables input = .error error →
      Story tables input [] (.ok (.rejected (.ofSenderNameError error)))
        [rejected (.ofSenderNameError error)]
  | fails {sender : SenderName tables} {seen : List (Event (Tx Greetings))} {error : GreetError}
      {attempts : Nat} :
      SenderName.new tables input = .ok sender →
      seen.countP isBegin = attempts + 1 → attempts < maxAttempts →
      (∀ event ∈ seen, commitSucceeds event = false) →
      (error = .conflict → attempts + 1 = maxAttempts) →
      Story tables input seen (.error error)
        ((List.range' 1 attempts).map retrying ++
          [.record "attempts" (.int (attempts + 1)), returnsError error])
  | records {sender : SenderName tables} {before : List (Event (Tx Greetings))} {kind : WriteKind}
      {greeting : Greeting tables} {attempts : Nat} :
      SenderName.new tables input = .ok sender →
      before.countP isBegin = attempts + 1 → attempts < maxAttempts →
      (∀ event ∈ before, commitSucceeds event = false) →
      Story tables input
        (before ++ [⟨.statement (.write kind greeting.toModel), .ok ()⟩, ⟨.commit, .ok ()⟩])
        (.ok (recorded greeting))
        ((List.range' 1 attempts).map retrying ++
          .record "attempts" (.int (attempts + 1)) :: recordedNotes greeting)

/-- What is added to the counter of the greetings. -/
def added : Note → Option Nat
  | .add "greet.greetings_recorded" value _ => some value
  | _ => none

/-- A request is served as it would be without telling, and tells of it in good order, each
    failure once where it is born, and the greetings that it has committed counted. -/
structure Account (tables : UnicodeTables) (uniqueViolation : DbErr → Bool) (request : String)
    (log : List (Event (Telltale (Driver Greetings))))
    (answer : Except ConnectError GreetResponse) : Prop where
  does : Prog.Runs (greet tables uniqueViolation request) (log.filterMap seenCall) answer
  told : ∀ outer, Told (greetCustoms tables uniqueViolation ownNote).driver outer log
  diagnoses : (notes log).filter Note.isDiagnosis =
    (calls log).flatMap (greetCustoms tables uniqueViolation ownNote).driver.due
  story : ∃ outcome, answer = answerOf outcome ∧
    Story tables request (log.filterMap seenCall) outcome (ownNotes log)
  counts : ((notes log).filterMap added).sum = (log.filterMap seenCall).countP commitSucceeds

/-- A call is told well. -/
theorem TracedRun.told {input : String} {log : List (Event (Telltale (Driver Greetings)))}
    {outcome : Except GreetError GreetOutput}
    (h : TracedRun tables uniqueViolation input log outcome) (outer : List Span) :
    Told (greetCustoms tables uniqueViolation ownNote).driver outer log := by
  cases h with
  | @rejects error _ =>
    have hmay : ownNote (usecaseSpan :: outer) (rejected (.ofSenderNameError error)) :=
      ⟨⟨outer, rfl⟩, by simp [rejected, Note.isDiagnosis], fun _ _ h => by cases h⟩
    exact .span (.note hmay (.nil _)) (.nil _)
  | tries _ hloop =>
    refine .span (((told_retry hloop).told outer).append ?_) (.nil _)
    rw [← List.append_nil (tellings _)]
    exact Told.tellings (fun note hnote => ownNote_endNotes outer note hnote) (.nil _)

theorem TracedRun.story {input : String} {log : List (Event (Telltale (Driver Greetings)))}
    {outcome : Except GreetError GreetOutput}
    (h : TracedRun tables uniqueViolation input log outcome) :
    Story tables input (log.filterMap seenCall) outcome (ownNotes log) := by
  cases h with
  | @rejects error hname =>
    have hnotes : ownNotes [telling (.opens usecaseSpan),
        telling (.note (rejected (.ofSenderNameError error))), telling (.closes usecaseSpan)] =
        [rejected (.ofSenderNameError error)] :=
      ownNotes_note (by simp [rejected, Note.isDiagnosis]) [telling (.closes usecaseSpan)]
    rw [hnotes]
    exact .rejects hname
  | @tries sender log outcome last hname hloop =>
    obtain ⟨_, hretries, hbegins, hle, hmost⟩ := told_retry hloop
    obtain ⟨earlier, final, hseen, hearlier, hfinal, hspent⟩ := seen_retry hloop
    obtain ⟨attempts, rfl⟩ : ∃ attempts, last = attempts + 1 := ⟨last - 1, by omega⟩
    have hnotes : ownNotes (telling (.opens usecaseSpan) ::
        (log ++ tellings (endNotes (attempts + 1) outcome) ++ [telling (.closes usecaseSpan)])) =
        (List.range' 1 attempts).map retrying ++ endNotes (attempts + 1) outcome := by
      show ownNotes (log ++ _ ++ _) = _
      rw [List.append_assoc, ownNotes_append, hretries, ownNotes_tellings, Nat.add_sub_cancel]
      · rw [show ownNotes [telling (.closes usecaseSpan)] = [] from rfl, List.append_nil]
      · exact fun note hnote => (ownNote_endNotes [] note hnote).2.1
    have hsame : (telling (.opens usecaseSpan) :: (log ++
        tellings (endNotes (attempts + 1) outcome) ++
        [telling (.closes usecaseSpan)])).filterMap seenCall = log.filterMap seenCall := by
      rw [List.filterMap_cons_none rfl, List.append_assoc, List.filterMap_append, seen_tellings]
      exact List.append_nil _
    have hquiet : ∀ event ∈ earlier.flatten, commitSucceeds event = false := by
      intro event hevent
      obtain ⟨log, hlog, hevent⟩ := List.mem_flatten.mp hevent
      exact (hearlier log hlog).not_commitSucceeds event hevent
    have hcount : (log.filterMap seenCall).countP isBegin = attempts + 1 := by omega
    have hlast : attempts < maxAttempts := by
      unfold maxAttempts at hmost ⊢
      omega
    rw [hnotes, hsame]
    cases outcome with
    | error error =>
      refine .fails hname hcount hlast ?_ ?_
      · rw [hseen]
        intro event hevent
        rcases List.mem_append.mp hevent with hevent | hevent
        · exact hquiet event hevent
        · exact hfinal.not_commitSucceeds event hevent
      · rintro rfl
        rw [hseen, List.countP_append, countP_isBegin_flatten hearlier, hfinal.countP_isBegin,
          hspent rfl] at hcount
        rw [← hcount]
        rfl
    | ok greeting =>
      obtain ⟨before, kind, rfl, hbefore⟩ := hfinal.written
      rw [hseen, ← List.append_assoc] at hcount ⊢
      refine .records hname ?_ hlast ?_
      · rw [List.countP_append] at hcount
        exact hcount
      · intro event hevent
        rcases List.mem_append.mp hevent with hevent | hevent
        · exact hquiet event hevent
        · exact hbefore event hevent

/-- A diagnosis adds nothing. -/
theorem filterMap_added (log : List (Event (Telltale (Driver Greetings)))) :
    (notes log).filterMap added = (ownNotes log).filterMap added := by
  rw [ownNotes, List.filterMap_filter]
  congr 1
  funext note
  cases note with
  | event level fields message => simp [added]
  | record field value => rfl
  | add counter value attributes => rfl

theorem added_retries (attempts : Nat) :
    ((List.range' 1 attempts).map retrying).filterMap added = [] := by
  rw [List.filterMap_map]
  exact List.filterMap_eq_nil_iff.mpr fun _ _ => rfl

/-- The counter counts the commits. -/
theorem Story.counts {input : String} {seen : List (Event (Tx Greetings))}
    {outcome : Except GreetError GreetOutput} {own : List Note}
    (h : Story tables input seen outcome own) :
    (own.filterMap added).sum = seen.countP commitSucceeds := by
  cases h with
  | rejects => rfl
  | fails _ _ _ hquiet _ =>
    rw [List.filterMap_append, added_retries, List.countP_eq_zero.mpr (by simpa using hquiet)]
    rfl
  | records _ _ _ hquiet =>
    rw [List.filterMap_append, added_retries, List.countP_append,
      List.countP_eq_zero.mpr (by simpa using hquiet)]
    rfl

/-- The handler adds its span to what the use case tells. -/
theorem runs_tracedGreet {request : String} {log : List (Event (Telltale (Driver Greetings)))}
    {answer : Except ConnectError GreetResponse}
    (h : Prog.Runs (tracedGreet tables uniqueViolation request) log answer) :
    ∃ inside outcome, log = telling (.opens (handlerSpan request)) ::
        (inside ++ [telling (.closes (handlerSpan request))]) ∧
      TracedRun tables uniqueViolation request inside outcome ∧ answer = answerOf outcome := by
  obtain ⟨body, rfl, hbody⟩ := Prog.runs_inSpan_iff.mp h
  obtain ⟨inside, after, outcome, rfl, hinside, hafter⟩ := Prog.runs_bind_iff.mp hbody
  have hanswer : after = [] ∧ answer = answerOf outcome := by
    cases outcome with
    | ok output => exact Prog.runs_pure_iff.mp hafter
    | error error => exact Prog.runs_pure_iff.mp hafter
  obtain ⟨rfl, rfl⟩ := hanswer
  rw [List.append_nil]
  exact ⟨inside, outcome, rfl, tracedRun_of_runs hinside, rfl⟩

theorem account_of_runs {request : String}
    {log : List (Event (Telltale (Driver Greetings)))}
    {answer : Except ConnectError GreetResponse}
    (h : Prog.Runs (tracedGreet tables uniqueViolation request) log answer) :
    Account tables uniqueViolation request log answer := by
  have hdoes := (follows_greet request).runs h
  obtain ⟨inside, outcome, rfl, hinside, rfl⟩ := runs_tracedGreet h
  have htold : ∀ outer, Told (greetCustoms tables uniqueViolation ownNote).driver outer
      (telling (.opens (handlerSpan request)) ::
        (inside ++ [telling (.closes (handlerSpan request))])) :=
    fun outer => .span (hinside.told _) (.nil outer)
  have hseen : (telling (.opens (handlerSpan request)) ::
      (inside ++ [telling (.closes (handlerSpan request))])).filterMap seenCall =
      inside.filterMap seenCall := by
    rw [List.filterMap_cons_none rfl, List.filterMap_append]
    exact List.append_nil _
  have hnotes : notes (telling (.opens (handlerSpan request)) ::
      (inside ++ [telling (.closes (handlerSpan request))])) = notes inside := by
    rw [notes_opens, notes_append]
    exact List.append_nil _
  have hown : ownNotes (telling (.opens (handlerSpan request)) ::
      (inside ++ [telling (.closes (handlerSpan request))])) = ownNotes inside := by
    rw [ownNotes, hnotes, ownNotes]
  refine ⟨hdoes, htold, ?_, ⟨outcome, rfl, ?_⟩, ?_⟩
  · exact (htold []).filter_notes (fun event _ hdue => isDiagnosis_of_due event hdue)
      fun _ _ hmay => hmay.2.1
  · rw [hseen, hown]
    exact hinside.story
  · rw [filterMap_added, hseen, hown]
    exact hinside.story.counts

/-- Every request gives an account of what is done for it, and whatever can be done for a request
    some account is given of it. -/
theorem greetings_give_account (tables : UnicodeTables) (uniqueViolation : DbErr → Bool)
    (request : String) :
    (∀ log answer, Prog.Runs (tracedGreet tables uniqueViolation request) log answer →
      Account tables uniqueViolation request log answer) ∧
    ∀ seen answer, Prog.Runs (greet tables uniqueViolation request) seen answer →
      ∃ log, log.filterMap seenCall = seen ∧
        Account tables uniqueViolation request log answer := by
  refine ⟨fun _ _ => account_of_runs, fun seen answer h => ?_⟩
  obtain ⟨log, hlog, hseen⟩ := (follows_greet request).exists_run h
  exact ⟨log, hseen, account_of_runs hlog⟩

/-- A violation of the unique key. -/
def taken : Failure := .query (.sqlxError (.database (.postgres "23505")))

/-- A connection that is lost. -/
def lost : Failure := .exec (.sqlxError (.io "broken pipe"))

/-- What is told of a request that loses an insert race, cannot roll back, and records its
    greeting in a second attempt. -/
def lostRaceTold : List (Event (Telltale (Driver Greetings))) :=
  [telling (.opens (handlerSpan "ada")), telling (.opens usecaseSpan),
    telling (.opens transactionSpan), calling ⟨.begin, .ok ()⟩,
    telling (.opens (findSpan "ada")), calling ⟨.statement (.find "ada"), .ok none⟩,
    telling (.closes (findSpan "ada")), telling (.opens (writeSpan .insert ⟨"ada", 1⟩)),
    calling ⟨.statement (.write .insert ⟨"ada", 1⟩), .error taken⟩,
    telling (.note (historyExists taken)), telling (.closes (writeSpan .insert ⟨"ada", 1⟩)),
    calling ⟨.rollback, .error lost⟩, telling (.note (rollbackFailed lost)),
    telling (.closes transactionSpan), telling (.note (retrying 1)),
    telling (.opens transactionSpan), calling ⟨.begin, .ok ()⟩,
    telling (.opens (findSpan "ada")), calling ⟨.statement (.find "ada"), .ok (some ⟨"ada", 1⟩)⟩,
    telling (.closes (findSpan "ada")), telling (.opens (writeSpan .update ⟨"ada", 2⟩)),
    calling ⟨.statement (.write .update ⟨"ada", 2⟩), .ok ()⟩,
    telling (.closes (writeSpan .update ⟨"ada", 2⟩)), calling ⟨.commit, .ok ()⟩,
    telling (.closes transactionSpan), telling (.note (.record "attempts" (.int 2))),
    telling (.note (.record "returning" (.bool true))),
    telling (.note (.record "times_greeted" (.int 2))),
    telling (.note (.add "greet.greetings_recorded" 1 [("returning", .bool true)])),
    telling (.note (.event .info [("sender", .text "ada"), ("returning", .bool true)]
      "recorded greeting")),
    telling (.closes usecaseSpan), telling (.closes (handlerSpan "ada"))]

theorem greetings_give_account_lostRace :
    Account .ascii sqlUnique "ada" lostRaceTold (.ok ⟨"Welcome back, ada!"⟩) := by
  apply (greetings_give_account .ascii sqlUnique "ada").1
  unfold lostRaceTold
  repeat apply Prog.Runs.call
  exact .pure _

end QuizArena.Greet
