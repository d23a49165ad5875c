import QuizArena.Kernel.RepositoryError
import QuizArena.Lib.Cost
import QuizArena.Lib.Transition

/-!
# The unit of work

`run` is `SeaOrmUnitOfWork::run` as a program over the driver: it begins a
transaction, runs the work in it and commits or rolls back by what the work returned.
A work is any program over the statements of the database, each of which may fail.
Here the unit of work runs against one database, which SQLite and Postgres treat
differently when a statement fails inside a transaction.
-/

namespace QuizArena.Kernel

open Lib

/-- The statements of a database: an operation answers with its reply or fails. -/
def Statements (W : Signature) : Signature := ⟨W.Op, fun op => Except DbErr (W.Reply op)⟩

/-- What a unit of work asks of the driver. -/
inductive TxOp (Op : Type) where
  | begin
  | statement (op : Op)
  | commit
  | rollback

/-- The driver, over the statements of a database. -/
def Tx (W : Signature) : Signature where
  Op := TxOp W.Op
  Reply
    | .begin | .commit | .rollback => Except DbErr Unit
    | .statement op => Except DbErr (W.Reply op)

section Run

variable {W : Signature} {T E : Type}

/-- A statement of the work among the events of the driver. -/
def inTx (event : Event (Statements W)) : Event (Tx W) := ⟨.statement event.1, event.2⟩

/-- The work, its statements sent through the open transaction. -/
def boundTo : Prog (Statements W) T → Prog (Tx W) T
  | .pure value => .pure value
  | .call op next => .call (.statement op) fun reply => boundTo (next reply)

/-- The `match outcome` of `SeaOrmUnitOfWork::run`; `into` is `E::from`. -/
def settle (into : RepositoryError Empty → E) : Except E T → Prog (Tx W) (Except E T)
  | .ok value =>
    .orReturn (fun source => into (.ofDbErr source)) (.perform (S := Tx W) .commit) fun () =>
      .pure (.ok value)
  | .error error => (Prog.perform (S := Tx W) .rollback).bind fun _ => .pure (.error error)

/-- `SeaOrmUnitOfWork::run`. -/
def run (into : RepositoryError Empty → E) (work : Prog (Statements W) (Except E T)) :
    Prog (Tx W) (Except E T) :=
  .orReturn (fun source => into (.ofDbErr source)) (.perform (S := Tx W) .begin) fun () =>
    (boundTo work).bind (settle into)

theorem runs_boundTo_iff {work : Prog (Statements W) T} {log : List (Event (Tx W))} {value : T} :
    Prog.Runs (boundTo work) log value ↔
      ∃ calls, log = calls.map inTx ∧ Prog.Runs work calls value := by
  induction work generalizing log with
  | pure result =>
    constructor
    · intro h
      obtain ⟨rfl, rfl⟩ := Prog.runs_pure_iff.mp h
      exact ⟨[], rfl, .pure _⟩
    · intro h
      obtain ⟨calls, rfl, hruns⟩ := h
      obtain ⟨rfl, rfl⟩ := Prog.runs_pure_iff.mp hruns
      exact .pure _
  | call op next ih =>
    constructor
    · intro h
      obtain ⟨reply, log, rfl, hnext⟩ := Prog.runs_call_iff.mp h
      obtain ⟨calls, rfl, hruns⟩ := (ih reply).mp hnext
      exact ⟨⟨op, reply⟩ :: calls, rfl, .call (S := Statements W) op reply hruns⟩
    · intro h
      obtain ⟨calls, rfl, hruns⟩ := h
      obtain ⟨reply, calls, rfl, hnext⟩ := Prog.runs_call_iff.mp hruns
      exact .call (S := Tx W) (.statement op) reply ((ih reply).mpr ⟨calls, rfl, hnext⟩)

/-- The runs of a unit of work. -/
inductive UnitRun (into : RepositoryError Empty → E) (work : Prog (Statements W) (Except E T)) :
    List (Event (Tx W)) → Except E T → Prop where
  | beginFails (source : DbErr) :
      UnitRun into work [⟨.begin, .error source⟩] (.error (into (.ofDbErr source)))
  | commits {calls : List (Event (Statements W))} {value : T} :
      Prog.Runs work calls (.ok value) →
      UnitRun into work (⟨.begin, .ok ()⟩ :: calls.map inTx ++ [⟨.commit, .ok ()⟩]) (.ok value)
  | commitFails {calls : List (Event (Statements W))} {value : T} (source : DbErr) :
      Prog.Runs work calls (.ok value) →
      UnitRun into work (⟨.begin, .ok ()⟩ :: calls.map inTx ++ [⟨.commit, .error source⟩])
        (.error (into (.ofDbErr source)))
  | rollsBack {calls : List (Event (Statements W))} {error : E} (reply : Except DbErr Unit) :
      Prog.Runs work calls (.error error) →
      UnitRun into work (⟨.begin, .ok ()⟩ :: calls.map inTx ++ [⟨.rollback, reply⟩])
        (.error error)

theorem runs_run_iff {into : RepositoryError Empty → E}
    {work : Prog (Statements W) (Except E T)} {log : List (Event (Tx W))}
    {result : Except E T} :
    Prog.Runs (run into work) log result ↔ UnitRun into work log result := by
  constructor
  · intro h
    obtain ⟨reply, log, rfl, hafter⟩ := Prog.runs_call_iff.mp h
    cases reply with
    | error source =>
      obtain ⟨rfl, rfl⟩ := Prog.runs_pure_iff.mp hafter
      exact .beginFails source
    | ok =>
      have hbound : Prog.Runs ((boundTo work).bind (settle into)) log result := hafter
      obtain ⟨before, after, outcome, rfl, hwork, hend⟩ := Prog.runs_bind_iff.mp hbound
      obtain ⟨calls, rfl, hcalls⟩ := runs_boundTo_iff.mp hwork
      cases outcome with
      | error error =>
        obtain ⟨reply, rest, rfl, hrest⟩ := Prog.runs_call_iff.mp hend
        obtain ⟨rfl, rfl⟩ := Prog.runs_pure_iff.mp hrest
        exact .rollsBack reply hcalls
      | ok value =>
        obtain ⟨reply, rest, rfl, hrest⟩ := Prog.runs_call_iff.mp hend
        cases reply with
        | error source =>
          obtain ⟨rfl, rfl⟩ := Prog.runs_pure_iff.mp hrest
          exact .commitFails source hcalls
        | ok =>
          obtain ⟨rfl, rfl⟩ := Prog.runs_pure_iff.mp hrest
          exact .commits hcalls
  · intro h
    have hbegin : ∀ {log result}, Prog.Runs ((boundTo work).bind (settle into)) log result →
        Prog.Runs (run into work) (⟨.begin, .ok ()⟩ :: log) result :=
      fun hrest => .call (S := Tx W) .begin (.ok ()) hrest
    cases h with
    | beginFails source => exact .call (S := Tx W) .begin (.error source) (.pure _)
    | commits hcalls =>
      apply hbegin
      refine Prog.runs_bind_iff.mpr ⟨_, _, _, rfl, runs_boundTo_iff.mpr ⟨_, rfl, hcalls⟩, ?_⟩
      exact .call (S := Tx W) .commit (.ok ()) (.pure _)
    | commitFails source hcalls =>
      apply hbegin
      refine Prog.runs_bind_iff.mpr ⟨_, _, _, rfl, runs_boundTo_iff.mpr ⟨_, rfl, hcalls⟩, ?_⟩
      exact .call (S := Tx W) .commit (.error source) (.pure _)
    | rollsBack reply hcalls =>
      apply hbegin
      refine Prog.runs_bind_iff.mpr ⟨_, _, _, rfl, runs_boundTo_iff.mpr ⟨_, rfl, hcalls⟩, ?_⟩
      exact .call (S := Tx W) .rollback reply (.pure _)

/-- A unit of work does not look at what a rollback is answered with. -/
theorem ignores_run (into : RepositoryError Empty → E)
    (work : Prog (Statements W) (Except E T)) :
    Prog.Ignores (fun op => op = TxOp.rollback) (run into work) := by
  have hcall : ∀ op : (Tx W).Op, op ≠ TxOp.rollback →
      Prog.Ignores (fun op => op = TxOp.rollback) (Prog.perform (S := Tx W) op) :=
    fun op hop => ⟨fun heq => absurd heq hop, fun _ => trivial⟩
  apply (hcall .begin (by intro h; cases h)).orReturn
  intro _
  have hwork : Prog.Ignores (fun op => op = TxOp.rollback) (boundTo work) := by
    induction work with
    | pure value => trivial
    | call op next ih =>
      refine ⟨?_, ih⟩
      intro h
      cases h
  apply hwork.bind
  intro outcome
  cases outcome with
  | ok value =>
    apply (hcall .commit (by intro h; cases h)).orReturn
    intro _
    trivial
  | error error => exact ⟨fun _ _ _ => rfl, fun _ => trivial⟩

section Cost

variable {cost : (Tx W).Op → Nat}

theorem within_boundTo {work : Prog (Statements W) T} {bound : Nat}
    (h : Prog.Within (S := Statements W) (fun op => cost (.statement op)) work bound) :
    (boundTo work).Within cost bound := by
  induction work generalizing bound with
  | pure value => trivial
  | call op next ih =>
    obtain ⟨hop, hnext⟩ := h
    exact ⟨hop, fun reply => ih reply (hnext reply)⟩

/-- A unit of work costs its begin, its work, and a commit or a rollback. -/
theorem within_run {into : RepositoryError Empty → E}
    {work : Prog (Statements W) (Except E T)} {begins bound ends : Nat}
    (h : Prog.Within (S := Statements W) (fun op => cost (.statement op)) work bound)
    (hbegin : cost .begin ≤ begins) (hcommit : cost .commit ≤ ends)
    (hrollback : cost .rollback ≤ ends) :
    (run into work).Within cost (begins + (bound + ends)) := by
  have hperform : ∀ {op : (Tx W).Op} {limit : Nat}, cost op ≤ limit →
      (Prog.perform (S := Tx W) op).Within cost limit :=
    fun hop => (Prog.within_perform _).mono hop
  apply (hperform hbegin).orReturn
  intro _
  apply (within_boundTo h).bind
  intro outcome
  rw [← Nat.add_zero ends]
  cases outcome with
  | ok value =>
    apply (hperform hcommit).orReturn
    intro _
    trivial
  | error error =>
    apply (hperform hrollback).bind
    intro _
    trivial

end Cost

end Run

end QuizArena.Kernel
