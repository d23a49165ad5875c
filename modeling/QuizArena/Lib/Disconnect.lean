import QuizArena.Lib.RowLocks
import QuizArena.Lib.Snapshots

/-!
# Clients that go away

When a client goes away its transaction is abandoned at whatever statement it was. Of a
store that could as well have failed that statement first, and that can refuse the client
from then on, nobody else can tell the difference.
-/

namespace QuizArena.Lib

variable {ι K V : Type} [DecidableEq ι] [DecidableEq K]

/-- What a store does when a client goes away it could also do to one that stays. -/
structure Store.LetsGo (store : Store ι K V) : Prop where
  fails : ∀ {s s' : store.State} {i : ι}, store.step s (i, .abandons) s' →
    ∃ failed, store.step s (i, .fails) failed ∧ store.step failed (i, .abandons) s'
  refuses : ∀ {s s' : store.State} {i : ι}, store.step s (i, .abandons) s' →
    store.step s' (i, .refuses) s'

theorem rowLocks_letsGo : (rowLocks : Store ι K V).LetsGo where
  fails := by
    intro s s' i h
    cases h with
    | @abandons _ tx htx =>
      refine ⟨_, LockStep.fails tx.holds htx fun _ hholds => hholds, ?_⟩
      have hagain : s.set i none = (s.set i (some ⟨tx.pending, tx.holds, true⟩)).set i none := by
        simp [LockState.set]
      show LockStep _ (i, .abandons) (s.set i none)
      rw [hagain]
      exact LockStep.abandons (Function.update_self ..)
  refuses := by
    intro s s' i h
    cases h with
    | abandons htx => exact LockStep.refuses (Function.update_self ..)

theorem snapshots_letsGo : (snapshots : Store ι K V).LetsGo where
  fails := by
    intro s s' i h
    cases h with
    | @abandons _ tx htx =>
      refine ⟨_, SnapshotStep.fails htx (Or.inl rfl), ?_⟩
      have hagain : s.set i none = (s.set i (some tx)).set i none := by
        simp [SnapshotState.set]
      show SnapshotStep _ (i, .abandons) (s.set i none)
      rw [hagain]
      exact SnapshotStep.abandons (Function.update_self ..)
  refuses := by
    intro s s' i h
    cases h with
    | abandons htx => exact SnapshotStep.refuses (Function.update_self ..)

end QuizArena.Lib
