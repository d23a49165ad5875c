import Mathlib.Data.List.Basic

/-!
# Programs over a signature

A program is a tree of calls to an environment. The signature says which calls there
are and what each of them is answered with; a program knows nothing else of what it
runs against. `Runs` is the set of its runs against an environment that answers as it
likes, `Step` is one call of a run. A program that is put together from parts runs as
its parts do one after another, and `retry` runs its body a bounded number of times.
-/

namespace QuizArena.Lib

/-- The calls to an environment and the type of their answers. -/
structure Signature where
  Op : Type
  Reply : Op → Type

/-- A program that calls the environment and ends with a value. -/
inductive Prog (S : Signature) (α : Type) where
  | pure (value : α)
  | call (op : S.Op) (next : S.Reply op → Prog S α)

/-- A call and its answer. -/
abbrev Event (S : Signature) := (op : S.Op) × S.Reply op

namespace Prog

variable {S : Signature} {α β γ ε : Type}

/-- The second program, run from the value the first ends with. -/
def bind : Prog S α → (α → Prog S β) → Prog S β
  | .pure value, rest => rest value
  | .call op next, rest => .call op fun reply => (next reply).bind rest

/-- A single call. -/
def perform (op : S.Op) : Prog S (S.Reply op) := .call op .pure

/-- The `?` operator: an error ends the program with its conversion. -/
def orReturn {ε' : Type} (into : ε → ε') (program : Prog S (Except ε α))
    (rest : α → Prog S (Except ε' β)) : Prog S (Except ε' β) :=
  program.bind fun
    | .ok value => rest value
    | .error error => .pure (.error (into error))

theorem bind_assoc (program : Prog S α) (rest : α → Prog S β) (rest' : β → Prog S γ) :
    (program.bind rest).bind rest' = program.bind fun value => (rest value).bind rest' := by
  induction program with
  | pure value => rfl
  | call op next ih =>
    show Prog.call op _ = Prog.call op _
    rw [funext ih]

/-- The runs of a program: its events and the value it ends with. -/
inductive Runs : Prog S α → List (Event S) → α → Prop where
  | pure (value : α) : Runs (.pure value) [] value
  | call (op : S.Op) {next : S.Reply op → Prog S α} {log : List (Event S)} {value : α}
      (reply : S.Reply op) : Runs (next reply) log value →
      Runs (.call op next) (⟨op, reply⟩ :: log) value

/-- One call of a program and the program it leaves. -/
inductive Step : Prog S α → Event S → Prog S α → Prop where
  | call (op : S.Op) (next : S.Reply op → Prog S α) (reply : S.Reply op) :
      Step (.call op next) ⟨op, reply⟩ (next reply)

@[simp] theorem runs_pure_iff {value value' : α} {log : List (Event S)} :
    Runs (.pure value) log value' ↔ log = [] ∧ value' = value := by
  constructor
  · intro h
    cases h
    exact ⟨rfl, rfl⟩
  · intro h
    rw [h.1, h.2]
    exact .pure value

theorem runs_call_iff {op : S.Op} {next : S.Reply op → Prog S α} {log : List (Event S)}
    {value : α} :
    Runs (.call op next) log value ↔
      ∃ reply rest, log = ⟨op, reply⟩ :: rest ∧ Runs (next reply) rest value := by
  constructor
  · intro h
    cases h with
    | call _ reply hrest => exact ⟨reply, _, rfl, hrest⟩
  · intro h
    obtain ⟨reply, rest, rfl, hrest⟩ := h
    exact .call op reply hrest

/-- A program in two parts runs the first and then the second. -/
theorem runs_bind_iff {program : Prog S α} {rest : α → Prog S β} {log : List (Event S)}
    {value : β} :
    Runs (program.bind rest) log value ↔
      ∃ before after result, log = before ++ after ∧ Runs program before result ∧
        Runs (rest result) after value := by
  induction program generalizing log with
  | pure result =>
    constructor
    · intro h
      exact ⟨[], log, result, rfl, .pure result, h⟩
    · intro h
      obtain ⟨before, after, result', rfl, hpure, hrest⟩ := h
      obtain ⟨rfl, rfl⟩ := runs_pure_iff.mp hpure
      exact hrest
  | call op next ih =>
    constructor
    · intro h
      obtain ⟨reply, log, rfl, hnext⟩ := runs_call_iff.mp h
      obtain ⟨before, after, result, rfl, hbefore, hafter⟩ := (ih reply).mp hnext
      exact ⟨_, after, result, rfl, .call op reply hbefore, hafter⟩
    · intro h
      obtain ⟨before, after, result, rfl, hcall, hafter⟩ := h
      obtain ⟨reply, log, rfl, hnext⟩ := runs_call_iff.mp hcall
      exact .call op reply ((ih reply).mpr ⟨log, after, result, rfl, hnext, hafter⟩)

/-- No run of a program goes on after another one. -/
theorem Runs.eq_of_append {program : Prog S α} {log rest : List (Event S)} {value value' : α}
    (h : Runs program log value) (h' : Runs program (log ++ rest) value') :
    rest = [] ∧ value' = value := by
  induction h with
  | pure value => exact runs_pure_iff.mp h'
  | call op reply _ ih =>
    obtain ⟨reply', after, heq, hnext⟩ := runs_call_iff.mp h'
    rw [List.cons_append, List.cons.injEq] at heq
    obtain ⟨hhead, rfl⟩ := heq
    cases hhead
    exact ih hnext

theorem step_call_iff {op : S.Op} {next : S.Reply op → Prog S α} {event : Event S}
    {program : Prog S α} :
    Step (.call op next) event program ↔
      ∃ reply, event = ⟨op, reply⟩ ∧ program = next reply := by
  constructor
  · intro h
    cases h with
    | call _ _ reply => exact ⟨reply, rfl, rfl⟩
  · intro h
    obtain ⟨reply, rfl, rfl⟩ := h
    exact .call op next reply

/-! ## Replies that do not matter -/

/-- A program that goes on in the same way whatever such a call is answered with. -/
def Ignores (ignored : S.Op → Prop) : Prog S α → Prop
  | .pure _ => True
  | .call op next =>
    (ignored op → ∀ reply reply', next reply = next reply') ∧
      ∀ reply, Ignores ignored (next reply)

/-- Two logs of the same calls, which differ only in replies that are ignored. -/
def SameBut (ignored : S.Op → Prop) : List (Event S) → List (Event S) → Prop :=
  List.Forall₂ fun event event' => event' = event ∨ ignored event.1 ∧ event'.1 = event.1

theorem Ignores.bind {ignored : S.Op → Prop} {program : Prog S α} {rest : α → Prog S β}
    (h : Ignores ignored program) (hrest : ∀ value, Ignores ignored (rest value)) :
    Ignores ignored (program.bind rest) := by
  induction program with
  | pure value => exact hrest value
  | call op next ih =>
    refine ⟨?_, fun reply => ih reply (h.2 reply)⟩
    intro hop reply reply'
    show (next reply).bind rest = (next reply').bind rest
    rw [h.1 hop reply reply']

theorem Ignores.orReturn {ε' : Type} {ignored : S.Op → Prop} {into : ε → ε'}
    {program : Prog S (Except ε α)} {rest : α → Prog S (Except ε' β)}
    (h : Ignores ignored program) (hrest : ∀ value, Ignores ignored (rest value)) :
    Ignores ignored (orReturn into program rest) := by
  apply h.bind
  intro result
  cases result with
  | ok value => exact hrest value
  | error error => trivial

/-- With other replies to calls whose replies are ignored a program ends with the same
    value. -/
theorem Ignores.runs {ignored : S.Op → Prop} {program : Prog S α} {log log' : List (Event S)}
    {value : α} (h : Ignores ignored program) (hruns : Runs program log value)
    (hsame : SameBut ignored log log') : Runs program log' value := by
  induction hruns generalizing log' with
  | pure value =>
    cases hsame
    exact .pure value
  | call op reply _ ih =>
    cases hsame with
    | @cons _ event' _ rest' hevent hrest =>
      have hnext := ih (h.2 reply) hrest
      obtain ⟨op', reply'⟩ := event'
      rcases hevent with heq | ⟨hop, heq⟩
      · cases heq
        exact .call op reply hnext
      · cases heq
        rw [h.1 hop reply reply'] at hnext
        exact .call op reply' hnext

/-! ## Bounded retries -/

/-- The body, run again after a result that calls for it, at most so many times. -/
def retry (again : α → Bool) (body : Prog S α) : Nat → Prog S α
  | 0 => body
  | retries + 1 => body.bind fun result =>
    if again result then retry again body retries else .pure result

/-- A run of a retried body is a run of the body for each attempt: every attempt but
    the last calls for another one, and so does the last only when none is left. -/
theorem runs_retry {again : α → Bool} {body : Prog S α} {retries : Nat} {log : List (Event S)}
    {value : α} (h : Runs (retry again body retries) log value) :
    ∃ (earlier : List (List (Event S) × α)) (last : List (Event S)),
      log = (earlier.map Prod.fst).flatten ++ last ∧
      (∀ attempt ∈ earlier, Runs body attempt.1 attempt.2 ∧ again attempt.2 = true) ∧
      Runs body last value ∧ earlier.length ≤ retries ∧
      (again value = true → earlier.length = retries) := by
  induction retries generalizing log with
  | zero => exact ⟨[], log, rfl, by simp, h, Nat.le_refl 0, fun _ => rfl⟩
  | succ retries ih =>
    obtain ⟨first, after, result, rfl, hfirst, hafter⟩ := runs_bind_iff.mp h
    cases hagain : again result with
    | false =>
      rw [hagain] at hafter
      obtain ⟨rfl, rfl⟩ := runs_pure_iff.mp hafter
      refine ⟨[], first, by simp, by simp, hfirst, Nat.zero_le _, ?_⟩
      intro hvalue
      rw [hagain] at hvalue
      cases hvalue
    | true =>
      rw [hagain] at hafter
      obtain ⟨earlier, last, rfl, hearlier, hlast, hlength, hspent⟩ := ih hafter
      refine ⟨(first, result) :: earlier, last, by simp, ?_, hlast, by simpa using hlength, ?_⟩
      · intro attempt hattempt
        rcases List.mem_cons.mp hattempt with rfl | hattempt
        · exact ⟨hfirst, hagain⟩
        · exact hearlier attempt hattempt
      · intro hvalue
        rw [List.length_cons, hspent hvalue]

theorem Ignores.retry {ignored : S.Op → Prop} {again : α → Bool} {body : Prog S α}
    (h : Ignores ignored body) (retries : Nat) : Ignores ignored (retry again body retries) := by
  induction retries with
  | zero => exact h
  | succ retries ih =>
    apply h.bind
    intro result
    split
    · exact ih
    · trivial

end Prog

end QuizArena.Lib
