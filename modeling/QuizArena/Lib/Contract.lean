import QuizArena.Lib.Prog

/-!
# Contracts of programs

A contract says what a program may ask for after what it was answered, what it may rely on
in the answers, and what holds when it ends. `Meets` goes along the program with the log of
its calls; a program in parts meets a contract when its parts do, one after another.
-/

namespace QuizArena.Lib

namespace Prog

variable {S : Signature} {α β ε ε' : Type} {asks : List (Event S) → S.Op → Prop}
  {answers : Event S → Prop} {log : List (Event S)}

/-- After the log, every call of the program may be asked for and every value it ends with is
    one it may end with, as long as the answers are what it relies on. -/
def Meets (asks : List (Event S) → S.Op → Prop) (answers : Event S → Prop)
    (ends : List (Event S) → α → Prop) : Prog S α → List (Event S) → Prop
  | .pure value, log => ends log value
  | .call op next, log =>
    asks log op ∧ ∀ reply, answers ⟨op, reply⟩ →
      Meets asks answers ends (next reply) (log ++ [⟨op, reply⟩])

/-- The call that the program makes next. -/
def asked : Prog S α → Option S.Op
  | .pure _ => none
  | .call op _ => some op

theorem Step.asked {program program' : Prog S α} {event : Event S}
    (h : Step program event program') : program.asked = some event.1 := by
  cases h
  rfl

theorem Meets.bind {ends : List (Event S) → α → Prop} {ends' : List (Event S) → β → Prop}
    {program : Prog S α} {rest : α → Prog S β} (h : Meets asks answers ends program log)
    (hrest : ∀ log value, ends log value → Meets asks answers ends' (rest value) log) :
    Meets asks answers ends' (program.bind rest) log := by
  induction program generalizing log with
  | pure value => exact hrest log value h
  | call op next ih => exact ⟨h.1, fun reply hreply => ih reply (h.2 reply hreply)⟩

/-- A call whose error ends the program. -/
theorem Meets.orReturn {ends : List (Event S) → Except ε α → Prop}
    {ends' : List (Event S) → Except ε' β → Prop} {into : ε → ε'}
    {program : Prog S (Except ε α)} {rest : α → Prog S (Except ε' β)}
    (h : Meets asks answers ends program log)
    (hok : ∀ log value, ends log (.ok value) → Meets asks answers ends' (rest value) log)
    (herror : ∀ log error, ends log (.error error) → ends' log (.error (into error))) :
    Meets asks answers ends' (program.orReturn into rest) log := by
  apply h.bind
  intro log result hresult
  cases result with
  | ok value => exact hok log value hresult
  | error error => exact herror log error hresult

/-- What is left of the program after a call goes on to meet the contract. -/
theorem Meets.step {ends : List (Event S) → α → Prop} {program program' : Prog S α}
    {event : Event S} (h : Meets asks answers ends program log)
    (hstep : Step program event program') (hanswer : answers event) :
    Meets asks answers ends program' (log ++ [event]) := by
  cases hstep with
  | call op next reply => exact h.2 reply hanswer

end Prog

end QuizArena.Lib
