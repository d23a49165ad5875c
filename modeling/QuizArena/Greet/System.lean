import QuizArena.Greet.Control
import QuizArena.Kernel.Atomicity
import QuizArena.Lib.RowLocks
import QuizArena.Lib.Snapshots

/-!
# Concurrent calls over one store

Any number of calls of `execute` run against one store, a statement of one of them at a
time. `Answers` says what an event of the driver means for the store. Postgres is the
store with locks on rows, SQLite the one with snapshots; what is shown of the store that
validates at the commit holds of both.
-/

namespace QuizArena.Greet

open Lib Kernel

/-- The row a store keeps under a key. -/
def rowOf (key : String) (row : Option Int64) : Option Model := row.map (Model.mk key)

/-- What an event of the driver means for the store. A statement may fail at any time and
    with any error, and so may a commit; a commit that fails can still land, unless
    it fails with contention. -/
inductive Answers : Event (Tx Greetings) → Action String Int64 → Prop where
  | begins : Answers ⟨.begin, .ok ()⟩ .begins
  | refuses (source : DbErr) : Answers ⟨.begin, .error source⟩ .refuses
  | finds (key : String) (row : Option Int64) :
      Answers ⟨.statement (.find key), .ok (rowOf key row)⟩ (.finds key row)
  | inserts (model : Model) :
      Answers ⟨.statement (.write .insert model), .ok ()⟩ (.inserts model.sender model.timesGreeted)
  | updates (model : Model) :
      Answers ⟨.statement (.write .update model), .ok ()⟩ (.updates model.sender model.timesGreeted)
  | fails (op : GreetingsOp) (source : DbErr) : Answers ⟨.statement op, .error source⟩ .fails
  | lands : Answers ⟨.commit, .ok ()⟩ .lands
  | landsUnheard (source : DbErr) : contended source = false →
      Answers ⟨.commit, .error source⟩ .lands
  | commitsNothing : Answers ⟨.commit, .ok ()⟩ .commitsNothing
  | commitFails (source : DbErr) : Answers ⟨.commit, .error source⟩ .abandons
  | rollsBack (reply : Except DbErr Unit) : Answers ⟨.rollback, reply⟩ .abandons

theorem Answers.fails_eq {op : GreetingsOp} {source : DbErr} {action : Action String Int64}
    (h : Answers ⟨.statement op, .error source⟩ action) : action = .fails := by
  cases h
  rfl

theorem Answers.commit_of_lands {event : Event (Tx Greetings)} (h : Answers event .lands) :
    event = ⟨.commit, .ok ()⟩ ∨ ∃ source, contended source = false ∧
      event = ⟨.commit, .error source⟩ := by
  cases h with
  | lands => exact Or.inl rfl
  | landsUnheard source hsource => exact Or.inr ⟨source, hsource, rfl⟩

variable {ι : Type}

/-- A step of a run: which call takes it, the event of its driver and what that means for
    the store. -/
structure Label (ι : Type) where
  process : ι
  event : Event (Tx Greetings)
  action : Action String Int64

/-- The calls that landed, in the order in which they did. -/
def landings (labels : List (Label ι)) : List ι :=
  labels.filterMap fun label => if label.action = .lands then some label.process else none

@[simp] theorem landings_append (labels labels' : List (Label ι)) :
    landings (labels ++ labels') = landings labels ++ landings labels' :=
  List.filterMap_append ..

theorem landings_snoc_of_lands {label : Label ι} (labels : List (Label ι))
    (h : label.action = .lands) :
    landings (labels ++ [label]) = landings labels ++ [label.process] := by
  rw [landings_append]
  simp [landings, h]

theorem landings_snoc_of_ne {label : Label ι} (labels : List (Label ι))
    (h : label.action ≠ .lands) : landings (labels ++ [label]) = landings labels := by
  rw [landings_append]
  simp [landings, h]

/-- What is left of every call, and the store. -/
structure SystemState (store : Store ι String Int64) where
  programs : ι → Prog (Tx Greetings) (Except GreetError GreetOutput)
  store : store.State

namespace SystemState

variable {store : Store ι String Int64}

/-- The committed rows. -/
def committed (s : SystemState store) : String → Option Int64 := store.committed s.store

/-- The outcome of a call that has ended. -/
def HasOutcome (s : SystemState store) (i : ι) (outcome : Except GreetError GreetOutput) : Prop :=
  s.programs i = .pure outcome

/-- No call has begun. -/
def start (store : Store ι String Int64) (tables : UnicodeTables)
    (uniqueViolation : DbErr → Bool) (inputs : ι → String) (table : String → Option Int64) :
    SystemState store :=
  ⟨fun i => execute tables uniqueViolation (inputs i), store.start table⟩

end SystemState

variable {store store' : Store ι String Int64} {R : store.State → store'.State → Prop}

/-- The same calls over two stores. -/
structure SameCalls (R : store.State → store'.State → Prop) (s : SystemState store)
    (t : SystemState store') : Prop where
  programs : t.programs = s.programs
  store : R s.store t.store

theorem SameCalls.committed (h : store.Refines store' R) {s : SystemState store}
    {t : SystemState store'} (hsame : SameCalls R s t) : t.committed = s.committed :=
  h.committed hsame.store

variable [DecidableEq ι]

/-- One call makes a step, if the store lets it. -/
inductive SystemStep (store : Store ι String Int64) :
    SystemState store → Label ι → SystemState store → Prop where
  | step {s : SystemState store} {label : Label ι} {state : store.State}
      {program : Prog (Tx Greetings) (Except GreetError GreetOutput)} :
      Prog.Step (s.programs label.process) label.event program →
      Answers label.event label.action →
      store.step s.store (label.process, label.action) state →
      SystemStep store s label ⟨Function.update s.programs label.process program, state⟩

/-- The runs of any number of calls. -/
def Run (store : Store ι String Int64) (tables : UnicodeTables) (uniqueViolation : DbErr → Bool)
    (inputs : ι → String) (table : String → Option Int64) (labels : List (Label ι))
    (s : SystemState store) : Prop :=
  Trace (SystemStep store) (.start store tables uniqueViolation inputs table) labels s

/-- The database behind the service. -/
def storeOf (ι : Type) [DecidableEq ι] : Backend → Store ι String Int64
  | .postgres => rowLocks
  | .sqlite => snapshots

theorem SameCalls.step (h : store.Refines store' R) {s s' : SystemState store}
    {t : SystemState store'} {label : Label ι} (hsame : SameCalls R s t)
    (hstep : SystemStep store s label s') :
    ∃ t', SystemStep store' t label t' ∧ SameCalls R s' t' := by
  cases hstep with
  | @step state program hprogram hanswers hstore =>
    obtain ⟨state', hstore', hR⟩ := h.step hsame.store hstore
    rw [← hsame.programs] at hprogram
    refine ⟨_, .step hprogram hanswers hstore', ?_, hR⟩
    rw [hsame.programs]

/-- Calls run over a store as they do over one that it refines. -/
theorem Run.refines (h : store.Refines store' R) {tables : UnicodeTables}
    {uniqueViolation : DbErr → Bool} {inputs : ι → String} {table : String → Option Int64}
    {labels : List (Label ι)} {s : SystemState store}
    (hrun : Run store tables uniqueViolation inputs table labels s) :
    ∃ t, Run store' tables uniqueViolation inputs table labels t ∧ SameCalls R s t := by
  have hstart : SameCalls R (.start store tables uniqueViolation inputs table)
      (.start store' tables uniqueViolation inputs table) := ⟨rfl, h.start table⟩
  exact Trace.simulate (SameCalls.step h) hrun hstart

/-- Either database lets nothing land that is not valid. -/
theorem storeOf_refines (ι : Type) [DecidableEq ι] (backend : Backend) :
    ∃ R, (storeOf ι backend).Refines validated R := by
  cases backend with
  | postgres => exact ⟨_, rowLocks_refines⟩
  | sqlite => exact ⟨_, snapshots_refines⟩

end QuizArena.Greet
