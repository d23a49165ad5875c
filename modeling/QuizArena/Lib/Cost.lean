import QuizArena.Lib.Prog
import Mathlib.Algebra.Ring.Nat

/-!
# Programs that make a bounded number of calls

Every call has a cost, which may be 0. A program is within a bound when all its runs are,
whatever its calls are answered with. The bound of a program that is put together from
parts is the sum of theirs, and a retried body costs as much as its attempts.
-/

namespace QuizArena.Lib

variable {S : Signature} {α β ε : Type} {cost : S.Op → Nat}

namespace Prog

/-- No run of the program costs more than the bound. -/
def Within (cost : S.Op → Nat) : Prog S α → Nat → Prop
  | .pure _, _ => True
  | .call op next, bound => cost op ≤ bound ∧ ∀ reply, Within cost (next reply) (bound - cost op)

theorem Within.mono {program : Prog S α} {bound bound' : Nat} (h : program.Within cost bound)
    (hle : bound ≤ bound') : program.Within cost bound' := by
  induction program generalizing bound bound' with
  | pure value => trivial
  | call op next ih =>
    obtain ⟨hop, hnext⟩ := h
    refine ⟨by omega, ?_⟩
    intro reply
    exact ih reply (hnext reply) (by omega)

theorem within_perform (op : S.Op) : (perform op).Within cost (cost op) :=
  ⟨Nat.le_refl _, fun _ => trivial⟩

theorem Within.bind {program : Prog S α} {rest : α → Prog S β} {bound bound' : Nat}
    (h : program.Within cost bound) (hrest : ∀ value, (rest value).Within cost bound') :
    (program.bind rest).Within cost (bound + bound') := by
  induction program generalizing bound with
  | pure value => exact (hrest value).mono (by omega)
  | call op next ih =>
    obtain ⟨hop, hnext⟩ := h
    refine ⟨by omega, ?_⟩
    intro reply
    exact (ih reply (hnext reply)).mono (by omega)

theorem Within.orReturn {ε' : Type} {into : ε → ε'} {program : Prog S (Except ε α)}
    {rest : α → Prog S (Except ε' β)} {bound bound' : Nat} (h : program.Within cost bound)
    (hrest : ∀ value, (rest value).Within cost bound') :
    (orReturn into program rest).Within cost (bound + bound') := by
  apply h.bind
  intro result
  cases result with
  | ok value => exact hrest value
  | error error => trivial

/-- A body costs as much again for every retry. -/
theorem Within.retry {again : α → Bool} {body : Prog S α} {bound : Nat}
    (h : body.Within cost bound) (retries : Nat) :
    (retry again body retries).Within cost ((retries + 1) * bound) := by
  induction retries with
  | zero => exact h.mono (by omega)
  | succ retries ih =>
    have hbody : (Prog.retry again body (retries + 1)).Within cost
        (bound + (retries + 1) * bound) := by
      apply h.bind
      intro result
      split
      · exact ih
      · trivial
    apply hbody.mono
    rw [Nat.succ_mul (retries + 1)]
    omega

/-- After a call the bound of the rest is lower by its cost. -/
theorem Within.step {program program' : Prog S α} {event : Event S} {bound : Nat}
    (h : program.Within cost bound) (hstep : Step program event program') :
    cost event.1 ≤ bound ∧ program'.Within cost (bound - cost event.1) := by
  cases hstep with
  | call op next reply => exact ⟨h.1, h.2 reply⟩

end Prog

end QuizArena.Lib
