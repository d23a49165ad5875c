import QuizArena.Kernel.UnitOfWork

/-!
# Atomicity of the unit of work

A single client's view of the two databases the service runs on. On SQLite a failed
statement undoes only itself. On Postgres it aborts the transaction: every later
statement fails, and `COMMIT` rolls back while the driver hears of a success. The unit
of work goes by what the work returned and by what the driver said, so on Postgres it
can report a success for a transaction that was rolled back; everywhere else it is
atomic and says what happened.
-/

namespace QuizArena.Kernel

open Lib

variable {W : Signature} {T E Db : Type}

/-- `DatabaseBackend`, of the two databases the service runs on. -/
inductive Backend where
  | sqlite
  | postgres
  deriving DecidableEq, Repr

/-- A transaction: the database as its statements left it, and whether a failed
    statement has aborted it. -/
structure OpenTx (Db : Type) where
  working : Db
  aborted : Bool

/-- A database and the transaction of its client. -/
structure Session (Db : Type) where
  committed : Db
  tx : Option (OpenTx Db)

/-- What a statement does to the database when it succeeds. -/
abbrev Effect (W : Signature) (Db : Type) := W.Op → Db → Db

/-- One event of the driver. A commit that is not contended may fail and still have
    landed. -/
inductive SessionStep (backend : Backend) (effect : Effect W Db) :
    Session Db → Event (Tx W) → Session Db → Prop where
  | begins (db : Db) :
      SessionStep backend effect ⟨db, none⟩ ⟨.begin, .ok ()⟩ ⟨db, some ⟨db, false⟩⟩
  | beginFails (db : Db) (source : DbErr) :
      SessionStep backend effect ⟨db, none⟩ ⟨.begin, .error source⟩ ⟨db, none⟩
  | executes (db working : Db) (op : W.Op) (reply : W.Reply op) :
      SessionStep backend effect ⟨db, some ⟨working, false⟩⟩ ⟨.statement op, .ok reply⟩
        ⟨db, some ⟨effect op working, false⟩⟩
  | statementFails (db : Db) (tx : OpenTx Db) (op : W.Op) (source : DbErr) :
      SessionStep backend effect ⟨db, some tx⟩ ⟨.statement op, .error source⟩
        ⟨db, some ⟨tx.working, tx.aborted || decide (backend = .postgres)⟩⟩
  | commits (db working : Db) :
      SessionStep backend effect ⟨db, some ⟨working, false⟩⟩ ⟨.commit, .ok ()⟩ ⟨working, none⟩
  | commitsAborted (db working : Db) :
      SessionStep backend effect ⟨db, some ⟨working, true⟩⟩ ⟨.commit, .ok ()⟩ ⟨db, none⟩
  | commitFails (db : Db) (tx : OpenTx Db) (source : DbErr) :
      SessionStep backend effect ⟨db, some tx⟩ ⟨.commit, .error source⟩ ⟨db, none⟩
  | commitLands (db working : Db) (source : DbErr) : contended source = false →
      SessionStep backend effect ⟨db, some ⟨working, false⟩⟩ ⟨.commit, .error source⟩
        ⟨working, none⟩
  | rollsBack (db : Db) (tx : OpenTx Db) (reply : Except DbErr Unit) :
      SessionStep backend effect ⟨db, some tx⟩ ⟨.rollback, reply⟩ ⟨db, none⟩

/-- The database with every statement of the log that succeeded applied. -/
def applied (effect : Effect W Db) : List (Event (Tx W)) → Db → Db
  | [], db => db
  | ⟨.statement op, .ok _⟩ :: log, db => applied effect log (effect op db)
  | _ :: log, db => applied effect log db

/-- Whether the event is a statement that failed. -/
def statementFails : Event (Tx W) → Bool
  | ⟨.statement _, .error _⟩ => true
  | _ => false

/-- A statement of the log failed. -/
def StatementFailed (log : List (Event (Tx W))) : Prop :=
  ∃ event ∈ log, statementFails event = true

theorem statementFailed_cons {event : Event (Tx W)} {log : List (Event (Tx W))} :
    StatementFailed (event :: log) ↔ statementFails event = true ∨ StatementFailed log := by
  constructor
  · intro h
    obtain ⟨failed, hmem, hfails⟩ := h
    rcases List.mem_cons.mp hmem with rfl | hmem
    · exact Or.inl hfails
    · exact Or.inr ⟨failed, hmem, hfails⟩
  · intro h
    rcases h with hfails | ⟨failed, hmem, hfails⟩
    · exact ⟨event, List.mem_cons_self, hfails⟩
    · exact ⟨failed, List.mem_cons_of_mem _ hmem, hfails⟩

theorem statementFailed_append_of_not {log : List (Event (Tx W))} {event : Event (Tx W)}
    (h : statementFails event = false) :
    StatementFailed (log ++ [event]) ↔ StatementFailed log := by
  induction log with
  | nil =>
    rw [List.nil_append, statementFailed_cons, h]
    simp
  | cons first log ih => rw [List.cons_append, statementFailed_cons, statementFailed_cons, ih]

/-- The calls of the work in the log of its unit. -/
def WorkCalls (log : List (Event (Tx W))) (calls : List (Event (Statements W))) : Prop :=
  ∃ rest, log = ⟨.begin, .ok ()⟩ :: calls.map inTx ++ rest

/-- The unit of work is atomic and reports what happened. -/
structure Truthful (into : RepositoryError Empty → E) (effect : Effect W Db)
    (work : Prog (Statements W) (Except E T)) (prior : Db) (log : List (Event (Tx W)))
    (result : Except E T) (final : Db) : Prop where
  succeeds : ∀ value, result = .ok value → final = applied effect log prior
  workFails : ∀ calls error, WorkCalls log calls → Prog.Runs work calls (.error error) →
    result = .error error ∧ final = prior
  beginFails : ∀ source, ⟨.begin, .error source⟩ ∈ log →
    log = [⟨.begin, .error source⟩] ∧ final = prior ∧ result = .error (into (.ofDbErr source))
  commitContended : ∀ source, ⟨.commit, .error source⟩ ∈ log → contended source = true →
    final = prior ∧ result = .error (into .conflict)
  commitFails : ∀ source, ⟨.commit, .error source⟩ ∈ log → contended source = false →
    result = .error (into .internal)

/-- On Postgres a statement of the work failed, the work carried on and was
    committed, and it had written something before. -/
def SilentRollback (backend : Backend) (effect : Effect W Db) (prior : Db)
    (log : List (Event (Tx W))) : Prop :=
  backend = .postgres ∧ StatementFailed log ∧ ⟨.commit, .ok ()⟩ ∈ log ∧
    applied effect log prior ≠ prior

theorem applied_append (effect : Effect W Db) (log log' : List (Event (Tx W))) (db : Db) :
    applied effect (log ++ log') db = applied effect log' (applied effect log db) := by
  induction log generalizing db with
  | nil => rfl
  | cons event log ih =>
    obtain ⟨op, reply⟩ := event
    cases op with
    | statement op =>
      cases reply with
      | ok reply => exact ih _
      | error source => exact ih _
    | begin | commit | rollback => exact ih _

/-- The statements of a work change nothing but the open transaction, and abort it
    when one fails on Postgres. -/
theorem trace_calls {backend : Backend} {effect : Effect W Db} {db : Db} {tx : OpenTx Db}
    {calls : List (Event (Statements W))} {s : Session Db}
    (h : Trace (SessionStep backend effect) ⟨db, some tx⟩ (calls.map inTx) s) :
    ∃ aborted, s = ⟨db, some ⟨applied effect (calls.map inTx) tx.working, aborted⟩⟩ ∧
      (aborted = true ↔ tx.aborted = true ∨
        backend = .postgres ∧ StatementFailed (calls.map inTx)) := by
  induction calls generalizing tx with
  | nil =>
    rw [List.map_nil, Trace.nil_iff] at h
    refine ⟨tx.aborted, h, ?_⟩
    simp [StatementFailed]
  | cons call calls ih =>
    obtain ⟨op, reply⟩ := call
    obtain ⟨s', hstep, hrest⟩ := Trace.cons_iff.mp h
    cases reply with
    | ok reply =>
      cases hstep
      obtain ⟨aborted, hs, haborted⟩ := ih hrest
      refine ⟨aborted, hs, haborted.trans ?_⟩
      have hcall : statementFails (inTx (W := W) ⟨op, .ok reply⟩) = false := rfl
      rw [List.map_cons, statementFailed_cons, hcall]
      simp
    | error source =>
      cases hstep
      obtain ⟨aborted, hs, haborted⟩ := ih hrest
      refine ⟨aborted, hs, haborted.trans ?_⟩
      have hfailed : StatementFailed (List.map inTx (⟨op, .error source⟩ :: calls)) :=
        ⟨_, List.mem_cons_self, rfl⟩
      simp only [Bool.or_eq_true, decide_eq_true_eq]
      constructor
      · intro h
        rcases h with (htx | hpostgres) | hlater
        · exact Or.inl htx
        · exact Or.inr ⟨hpostgres, hfailed⟩
        · exact Or.inr ⟨hlater.1, hfailed⟩
      · intro h
        rcases h with htx | hpostgres
        · exact Or.inl (Or.inl htx)
        · exact Or.inl (Or.inr hpostgres.1)

theorem ne_statement {event : Event (Tx W)} (h : ∀ op, event.1 ≠ TxOp.statement op) :
    ∀ op reply, event ≠ ⟨.statement op, reply⟩ :=
  fun op _ heq => h op (congrArg Sigma.fst heq)

/-- The calls of a work are read off the log of its unit. -/
theorem calls_of_workCalls {work : Prog (Statements W) (Except E T)}
    {calls calls' : List (Event (Statements W))} {outcome outcome' : Except E T}
    {last : Event (Tx W)} (hlast : ∀ op reply, last ≠ ⟨.statement op, reply⟩)
    (h : Prog.Runs work calls outcome) (h' : Prog.Runs work calls' outcome')
    (hcalls : WorkCalls (⟨.begin, .ok ()⟩ :: calls.map inTx ++ [last]) calls') :
    outcome' = outcome := by
  obtain ⟨rest, heq⟩ := hcalls
  rw [List.cons_append, List.cons_append, List.cons.injEq] at heq
  have hinjective : Function.Injective (inTx (W := W)) := by
    intro a b hab
    obtain ⟨op, reply⟩ := a
    obtain ⟨op', reply'⟩ := b
    cases hab
    rfl
  have hext : ∃ more, calls = calls' ++ more := by
    rcases List.append_eq_append_iff.mp heq.2 with ⟨middle, hlonger, hmiddle⟩ | ⟨middle, hlonger, _⟩
    · cases middle with
      | nil =>
        rw [List.append_nil] at hlonger
        exact ⟨[], by rw [List.append_nil, List.map_injective_iff.mpr hinjective hlonger]⟩
      | cons event middle =>
        -- the last event of the unit is no call of the work
        rw [List.cons_append, List.cons.injEq] at hmiddle
        have hmem : last ∈ calls'.map inTx := by
          rw [hlonger, hmiddle.1]
          exact List.mem_append_right _ List.mem_cons_self
        obtain ⟨call, _, hcall⟩ := List.mem_map.mp hmem
        exact absurd hcall.symm (hlast call.1 call.2)
    · obtain ⟨before, more, rfl, hbefore, _⟩ := List.map_eq_append_iff.mp hlonger
      exact ⟨more, by rw [List.map_injective_iff.mpr hinjective hbefore]⟩
  obtain ⟨more, rfl⟩ := hext
  exact (h'.eq_of_append h).2.symm

/-- The database at the end of the work of a unit. -/
theorem trace_unit {backend : Backend} {effect : Effect W Db} {prior : Db}
    {calls : List (Event (Statements W))} {last : Event (Tx W)} {final : Session Db}
    (h : Trace (SessionStep backend effect) ⟨prior, none⟩
      (⟨.begin, .ok ()⟩ :: calls.map inTx ++ [last]) final) :
    ∃ aborted, SessionStep backend effect
        ⟨prior, some ⟨applied effect (calls.map inTx) prior, aborted⟩⟩ last final ∧
      (aborted = true ↔ backend = .postgres ∧ StatementFailed (calls.map inTx)) := by
  rw [List.cons_append] at h
  obtain ⟨s, hbegin, hrest⟩ := Trace.cons_iff.mp h
  cases hbegin
  obtain ⟨s, hcalls, hlast⟩ := Trace.append_iff.mp hrest
  obtain ⟨aborted, rfl, haborted⟩ := trace_calls hcalls
  obtain ⟨s, hstep, hnil⟩ := Trace.cons_iff.mp hlast
  rw [Trace.nil_iff] at hnil
  subst hnil
  exact ⟨aborted, hstep, haborted.trans (by simp)⟩

theorem applied_unit {effect : Effect W Db} {prior : Db} {calls : List (Event (Statements W))}
    {last : Event (Tx W)} (hlast : ∀ op reply, last ≠ ⟨.statement op, reply⟩) :
    applied effect (⟨.begin, .ok ()⟩ :: calls.map inTx ++ [last]) prior =
      applied effect (calls.map inTx) prior := by
  rw [List.cons_append, applied, applied_append]
  · obtain ⟨op, reply⟩ := last
    cases op with
    | statement op => exact absurd rfl (hlast op reply)
    | begin | commit | rollback => rfl
  · intro op reply h
    cases h

/-- Of what is no statement a unit has only its first and its last event. -/
theorem mem_unit {calls : List (Event (Statements W))} {last event : Event (Tx W)}
    (h : event ∈ (⟨.begin, .ok ()⟩ :: calls.map inTx ++ [last] : List (Event (Tx W))))
    (hevent : ∀ op reply, event ≠ ⟨.statement op, reply⟩) :
    event = ⟨.begin, .ok ()⟩ ∨ event = last := by
  rcases List.mem_append.mp h with h | h
  · rcases List.mem_cons.mp h with h | h
    · exact Or.inl h
    · obtain ⟨call, _, rfl⟩ := List.mem_map.mp h
      exact absurd rfl (hevent call.1 call.2)
  · exact Or.inr (List.mem_singleton.mp h)

/-- What is left to show of a unit that has begun: what it makes of a success, of an error
    of its work and of an error of the commit. -/
theorem truthful_unit {into : RepositoryError Empty → E} {effect : Effect W Db}
    {work : Prog (Statements W) (Except E T)} {prior final : Db}
    {calls : List (Event (Statements W))} {outcome result : Except E T} {last : Event (Tx W)}
    (hlast : ∀ op reply, last ≠ ⟨.statement op, reply⟩) (hbegin : ∀ reply, last ≠ ⟨.begin, reply⟩)
    (hcalls : Prog.Runs work calls outcome)
    (hsucceeds : ∀ value, result = .ok value → final = applied effect (calls.map inTx) prior)
    (hfails : ∀ error, outcome = .error error → result = .error error ∧ final = prior)
    (hcontended : ∀ source, last = ⟨.commit, .error source⟩ → contended source = true →
      final = prior ∧ result = .error (into .conflict))
    (hcommit : ∀ source, last = ⟨.commit, .error source⟩ → contended source = false →
      result = .error (into .internal)) :
    Truthful into effect work prior (⟨.begin, .ok ()⟩ :: calls.map inTx ++ [last]) result
      final where
  succeeds value hvalue := by
    rw [applied_unit hlast]
    exact hsucceeds value hvalue
  workFails calls' error hwork hruns :=
    hfails error (calls_of_workCalls hlast hcalls hruns hwork).symm
  beginFails source hmem := by
    rcases mem_unit hmem (ne_statement nofun) with h | h
    · cases h
    · exact absurd h.symm (hbegin _)
  commitContended source hmem := by
    rcases mem_unit hmem (ne_statement nofun) with h | h
    · cases h
    · exact hcontended source h.symm
  commitFails source hmem := by
    rcases mem_unit hmem (ne_statement nofun) with h | h
    · cases h
    · exact hcommit source h.symm

/-- A unit of work is atomic and truthful exactly when it is not silently rolled
    back. -/
theorem run_truthful_iff (backend : Backend) (effect : Effect W Db)
    (into : RepositoryError Empty → E) (work : Prog (Statements W) (Except E T)) (prior : Db)
    (log : List (Event (Tx W))) (result : Except E T) (final : Session Db)
    (hrun : Prog.Runs (run into work) log result)
    (hdb : Trace (SessionStep backend effect) ⟨prior, none⟩ log final) :
    Truthful into effect work prior log result final.committed ↔
      ¬ SilentRollback backend effect prior log := by
  cases runs_run_iff.mp hrun with
  | beginFails source =>
    obtain ⟨s, hstep, hrest⟩ := Trace.cons_iff.mp hdb
    rw [Trace.nil_iff] at hrest
    subst hrest
    cases hstep
    apply iff_of_true
    · refine ⟨?_, ?_, ?_, ?_, ?_⟩
      · intro value h
        cases h
      · intro calls error h
        obtain ⟨rest, h⟩ := h
        cases h
      · intro source' h
        cases List.mem_singleton.mp h
        exact ⟨rfl, rfl, rfl⟩
      · intro source' h
        cases List.mem_singleton.mp h
      · intro source' h
        cases List.mem_singleton.mp h
    · intro h
      cases List.mem_singleton.mp h.2.2.1
  | @commits calls value hcalls =>
    have hlast : ∀ op reply, (⟨.commit, .ok ()⟩ : Event (Tx W)) ≠ ⟨.statement op, reply⟩ :=
      ne_statement nofun
    obtain ⟨aborted, hstep, haborted⟩ := trace_unit hdb
    have htruthful : final.committed = applied effect (calls.map inTx) prior →
        Truthful into effect work prior (⟨.begin, .ok ()⟩ :: calls.map inTx ++ [⟨.commit, .ok ()⟩])
          (.ok value) final.committed :=
      fun hfinal => truthful_unit hlast nofun hcalls (fun _ _ => hfinal) nofun nofun nofun
    have hfailed : StatementFailed (⟨.begin, .ok ()⟩ :: calls.map inTx ++
        [⟨.commit, .ok ()⟩] : List (Event (Tx W))) ↔ StatementFailed (calls.map inTx) := by
      rw [statementFailed_append_of_not rfl, statementFailed_cons]
      simp [statementFails]
    unfold SilentRollback
    rw [applied_unit hlast, hfailed]
    cases hstep with
    | commits =>
      apply iff_of_true (htruthful rfl)
      intro h
      cases haborted.mpr ⟨h.1, h.2.1⟩
    | commitsAborted =>
      obtain ⟨hpostgres, hstatement⟩ := haborted.mp rfl
      constructor
      · intro h hsilent
        have hsucceeds := h.succeeds value rfl
        rw [applied_unit hlast] at hsucceeds
        exact hsilent.2.2.2 hsucceeds.symm
      · intro hnot
        apply htruthful
        by_contra hne
        exact hnot ⟨hpostgres, hstatement, by simp, fun heq => hne heq.symm⟩
  | @commitFails calls value source hcalls =>
    obtain ⟨aborted, hstep, _⟩ := trace_unit hdb
    apply iff_of_true
    · refine truthful_unit (ne_statement nofun) nofun hcalls nofun nofun ?_ ?_
      · intro source' h hcontended
        cases h
        refine ⟨?_, by rw [RepositoryError.ofDbErr, if_pos hcontended]⟩
        cases hstep with
        | commitFails => rfl
        | commitLands _ _ _ hlands =>
          rw [hlands] at hcontended
          cases hcontended
      · intro source' h hcontended
        cases h
        rw [RepositoryError.ofDbErr, hcontended]
        rfl
    · intro h
      rcases mem_unit h.2.2.1 (ne_statement nofun) with h | h <;> cases h
  | @rollsBack calls error reply hcalls =>
    obtain ⟨aborted, hstep, _⟩ := trace_unit hdb
    have hfinal : final.committed = prior := by
      cases hstep
      rfl
    apply iff_of_true
    · refine truthful_unit (ne_statement nofun) nofun hcalls nofun ?_ nofun nofun
      intro error' h
      cases h
      exact ⟨rfl, hfinal⟩
    · intro h
      rcases mem_unit h.2.2.1 (ne_statement nofun) with h | h <;> cases h

/-- A table of notes: a note is added or all of them are listed. -/
def Notes : Signature where
  Op := Option Nat
  Reply
    | some _ => Unit
    | none => List Nat

/-- A note that is added joins the table. -/
def noteEffect : Effect Notes (List Nat)
  | some id, notes => notes ++ [id]
  | none, notes => notes

/-- A work that adds a note, tries another one and makes do without it. -/
def lenientWork : Prog (Statements Notes) (Except (RepositoryError Empty) Unit) :=
  .orReturn RepositoryError.ofDbErr (.perform (S := Statements Notes) (some 1)) fun () =>
    (Prog.perform (S := Statements Notes) (some 1)).bind fun _ => .pure (.ok ())

/-- The driver's error for a key that is there already. -/
def duplicateKey : DbErr := .exec (.sqlxError (.database (.postgres "23505")))

/-- What the driver says to the lenient work. -/
def lenientLog : List (Event (Tx Notes)) :=
  [⟨.begin, .ok ()⟩, ⟨.statement (some 1), .ok ()⟩, ⟨.statement (some 1), .error duplicateKey⟩,
    ⟨.commit, .ok ()⟩]

theorem lenientLog_runs : Prog.Runs (run id lenientWork) lenientLog (.ok ()) :=
  .call (S := Tx Notes) .begin (.ok ())
    (.call (S := Tx Notes) (.statement (some 1)) (.ok ())
      (.call (S := Tx Notes) (.statement (some 1)) (.error duplicateKey)
        (.call (S := Tx Notes) .commit (.ok ()) (.pure _))))

/-- The work's two statements leave the first note in the transaction, which the second
    one aborts on Postgres. -/
theorem lenientLog_statements (backend : Backend) :
    Trace (SessionStep backend noteEffect) ⟨[], none⟩ (lenientLog.take 3)
      ⟨[], some ⟨[1], decide (backend = .postgres)⟩⟩ := by
  have hadds : SessionStep backend noteEffect ⟨[], some ⟨[], false⟩⟩ ⟨.statement (some 1), .ok ()⟩
      ⟨[], some ⟨[1], false⟩⟩ := SessionStep.executes (W := Notes) [] [] (some 1) ()
  have hfails : SessionStep backend noteEffect ⟨[], some ⟨[1], false⟩⟩
      ⟨.statement (some 1), .error duplicateKey⟩
      ⟨[], some ⟨[1], decide (backend = .postgres)⟩⟩ :=
    SessionStep.statementFails (W := Notes) [] ⟨[1], false⟩ (some 1) duplicateKey
  exact .cons (.begins []) (.cons hadds (.cons hfails (.nil _)))

theorem lenientLog_postgres :
    Trace (SessionStep .postgres noteEffect) ⟨[], none⟩ lenientLog ⟨[], none⟩ := by
  have h := lenientLog_statements .postgres
  exact Trace.append_iff.mpr ⟨_, h, .cons (.commitsAborted [] [1]) (.nil _)⟩

theorem lenientLog_sqlite :
    Trace (SessionStep .sqlite noteEffect) ⟨[], none⟩ lenientLog ⟨[1], none⟩ := by
  have h := lenientLog_statements .sqlite
  exact Trace.append_iff.mpr ⟨_, h, .cons (.commits [] [1]) (.nil _)⟩

/-- On Postgres the unit of work reports a success and has stored nothing. -/
theorem run_reports_rolled_back_work :
    Prog.Runs (run id lenientWork) lenientLog (.ok ()) ∧
      Trace (SessionStep .postgres noteEffect) ⟨[], none⟩ lenientLog ⟨[], none⟩ ∧
      ¬ Truthful id noteEffect lenientWork [] lenientLog (.ok ()) [] := by
  refine ⟨lenientLog_runs, lenientLog_postgres, ?_⟩
  intro h
  cases h.succeeds () rfl

theorem run_truthful_iff_sqlite :
    Truthful id noteEffect lenientWork [] lenientLog (.ok ()) [1] := by
  apply (run_truthful_iff .sqlite noteEffect id lenientWork [] lenientLog (.ok ()) ⟨[1], none⟩
    lenientLog_runs lenientLog_sqlite).mpr
  intro h
  cases h.1

end QuizArena.Kernel
