import QuizArena.Lib.Transition
import Mathlib.Logic.Function.Basic

/-!
# Stores of rows and their transactions

A store keeps at most one row for each key and serves clients that each have at most
one transaction open. What a client does is an `Action`; what a store lets it do is a
step relation, in which an action that has to wait is not enabled. A store refines
another one when the other can follow its every step with the same committed rows.

`validated` is the weakest store here: a transaction lands only if what it was told of
the rows it writes is still so. `serial` is the strongest: one transaction at a time, of
which nothing fails.
-/

namespace QuizArena.Lib

variable {ι K V : Type}

/-- What a client does. A statement that fails does not say which one it was. -/
inductive Action (K V : Type) where
  | begins
  | refuses
  | finds (key : K) (row : Option V)
  | inserts (key : K) (value : V)
  | updates (key : K) (value : V)
  | fails
  | lands
  /-- A commit goes through, and nothing has landed. -/
  | commitsNothing
  | abandons
  deriving DecidableEq

/-- A store of rows. -/
structure Store (ι K V : Type) where
  State : Type
  start : (K → Option V) → State
  committed : State → K → Option V
  step : State → ι × Action K V → State → Prop

/-- A store whose every step another one can follow. -/
structure Store.Refines (store store' : Store ι K V)
    (R : store.State → store'.State → Prop) : Prop where
  start : ∀ table, R (store.start table) (store'.start table)
  committed : ∀ {s t}, R s t → store'.committed t = store.committed s
  step : ∀ {s s' t label}, R s t → store.step s label s' → ∃ t', store'.step t label t' ∧ R s' t'

/-- The rows a transaction sees: its own, and those below. -/
def overlay (pending committed : K → Option V) : K → Option V :=
  fun key => (pending key).or (committed key)

theorem overlay_of_none {pending committed : K → Option V} {key : K} (h : pending key = none) :
    overlay pending committed key = committed key := by
  rw [overlay, h, Option.none_or]

theorem overlay_update [DecidableEq K] (committed : K → Option V) (key : K) (value : V) :
    overlay (Function.update (fun _ => none) key (some value)) committed =
      Function.update committed key (some value) := by
  funext key'
  by_cases h : key' = key
  · subst h
    simp [overlay]
  · simp [overlay, h]

/-! ## Validation at the commit -/

/-- What a transaction has been told of the rows and what it has written. -/
structure View (K V : Type) where
  touched : Bool
  seen : K → Option (Option V)
  pending : K → Option V
  failed : Bool
  touched_of_pending : ∀ key, pending key ≠ none → touched = true

namespace View

/-- A transaction that has just begun. -/
def fresh : View K V := ⟨false, fun _ => none, fun _ => none, false, fun _ h => absurd rfl h⟩

/-- A statement fails. -/
def fail (view : View K V) : View K V :=
  { view with touched := true, failed := true, touched_of_pending := fun _ _ => rfl }

/-- Of the rows it writes everything is still as it was told. -/
def Valid (view : View K V) (committed : K → Option V) : Prop :=
  ∀ key row, view.seen key = some row → view.pending key ≠ none → committed key = row

variable [DecidableEq K]

/-- The answer to a lookup, unless it is of a row of its own. -/
def find (view : View K V) (key : K) (row : Option V) : View K V :=
  { view with
    touched := true
    seen := if view.pending key = none then Function.update view.seen key (some row) else view.seen
    touched_of_pending := fun _ _ => rfl }

/-- An insert that succeeds says that there is no row. -/
def insert (view : View K V) (key : K) (value : V) : View K V :=
  { view with
    touched := true
    seen := Function.update view.seen key (some none)
    pending := Function.update view.pending key (some value)
    touched_of_pending := fun _ _ => rfl }

/-- An update that succeeds takes back that there is no row. -/
def update (view : View K V) (key : K) (value : V) : View K V :=
  { view with
    touched := true
    seen := Function.update view.seen key ((view.seen key).filter Option.isSome)
    pending := Function.update view.pending key (some value)
    touched_of_pending := fun _ _ => rfl }

end View

/-- The committed rows and the open transactions. -/
structure Ledger (ι K V : Type) where
  committed : K → Option V
  views : ι → Option (View K V)

section Validated

variable [DecidableEq ι]

/-- The transaction of a client becomes another one, or none. -/
def Ledger.set (s : Ledger ι K V) (i : ι) (view : Option (View K V)) : Ledger ι K V :=
  { s with views := Function.update s.views i view }

/-- The writes of a transaction become part of the committed rows. -/
def Ledger.land (s : Ledger ι K V) (i : ι) (view : View K V) : Ledger ι K V :=
  ⟨overlay view.pending s.committed, Function.update s.views i none⟩

@[simp] theorem Ledger.views_set (s : Ledger ι K V) (i : ι) (view : Option (View K V)) :
    (s.set i view).views = Function.update s.views i view := rfl

variable [DecidableEq K]

inductive ValidatedStep : Ledger ι K V → ι × Action K V → Ledger ι K V → Prop where
  | begins {s : Ledger ι K V} {i : ι} : s.views i = none →
      ValidatedStep s (i, .begins) (s.set i (some .fresh))
  | refuses {s : Ledger ι K V} {i : ι} : s.views i = none → ValidatedStep s (i, .refuses) s
  | finds {s : Ledger ι K V} {i : ι} {view : View K V} (key : K) (row : Option V) :
      s.views i = some view → (view.touched = false → row = s.committed key) →
      ValidatedStep s (i, .finds key row) (s.set i (some (view.find key row)))
  | inserts {s : Ledger ι K V} {i : ι} {view : View K V} (key : K) (value : V) :
      s.views i = some view →
      ValidatedStep s (i, .inserts key value) (s.set i (some (view.insert key value)))
  | updates {s : Ledger ι K V} {i : ι} {view : View K V} (key : K) (value : V) :
      s.views i = some view →
      ValidatedStep s (i, .updates key value) (s.set i (some (view.update key value)))
  | fails {s : Ledger ι K V} {i : ι} {view : View K V} : s.views i = some view →
      ValidatedStep s (i, .fails) (s.set i (some view.fail))
  | lands {s : Ledger ι K V} {i : ι} {view : View K V} :
      s.views i = some view → view.Valid s.committed →
      ValidatedStep s (i, .lands) (s.land i view)
  | commitsNothing {s : Ledger ι K V} {i : ι} {view : View K V} : s.views i = some view →
      view.failed = true → ValidatedStep s (i, .commitsNothing) (s.set i none)
  | abandons {s : Ledger ι K V} {i : ι} {view : View K V} : s.views i = some view →
      ValidatedStep s (i, .abandons) (s.set i none)

/-- A client does not touch the transactions of the others. -/
theorem ValidatedStep.views_of_ne {s s' : Ledger ι K V} {i j : ι} {action : Action K V}
    (h : ValidatedStep s (i, action) s') (hji : j ≠ i) : s'.views j = s.views j := by
  cases h with
  | refuses => rfl
  | begins | finds | inserts | updates | fails | lands | commitsNothing | abandons =>
    exact Function.update_of_ne hji ..

/-- The committed rows change only when a transaction lands. -/
theorem ValidatedStep.committed_of_ne_lands {s s' : Ledger ι K V} {i : ι} {action : Action K V}
    (h : ValidatedStep s (i, action) s') (haction : action ≠ .lands) :
    s'.committed = s.committed := by
  cases h with
  | lands => exact absurd rfl haction
  | begins | refuses | finds | inserts | updates | fails | commitsNothing | abandons => rfl

/-- Of a row that is there a transaction knows from a lookup. -/
theorem ValidatedStep.seen {s s' : Ledger ι K V} {i : ι} {action : Action K V} {view' : View K V}
    {key : K} {value : V} (h : ValidatedStep s (i, action) s') (hview : s'.views i = some view')
    (hseen : view'.seen key = some (some value)) :
    action = .finds key (some value) ∨
      ∃ view, s.views i = some view ∧ view.seen key = some (some value) := by
  cases h with
  | begins =>
    rw [Ledger.views_set, Function.update_self] at hview
    cases hview
    cases hseen
  | refuses => exact Or.inr ⟨view', hview, hseen⟩
  | @finds _ view key' row hopen =>
    rw [Ledger.views_set, Function.update_self] at hview
    cases hview
    simp only [View.find] at hseen
    split at hseen
    · by_cases hkey : key = key'
      · subst hkey
        rw [Function.update_self] at hseen
        cases hseen
        exact Or.inl rfl
      · rw [Function.update_of_ne hkey] at hseen
        exact Or.inr ⟨view, hopen, hseen⟩
    · exact Or.inr ⟨view, hopen, hseen⟩
  | @inserts _ view key' _ hopen =>
    rw [Ledger.views_set, Function.update_self] at hview
    cases hview
    simp only [View.insert] at hseen
    by_cases hkey : key = key'
    · subst hkey
      rw [Function.update_self] at hseen
      cases hseen
    · rw [Function.update_of_ne hkey] at hseen
      exact Or.inr ⟨view, hopen, hseen⟩
  | @updates _ view key' _ hopen =>
    rw [Ledger.views_set, Function.update_self] at hview
    cases hview
    simp only [View.update] at hseen
    by_cases hkey : key = key'
    · subst hkey
      rw [Function.update_self] at hseen
      exact Or.inr ⟨view, hopen, (Option.filter_eq_some_iff.mp hseen).1⟩
    · rw [Function.update_of_ne hkey] at hseen
      exact Or.inr ⟨view, hopen, hseen⟩
  | @fails _ view hopen =>
    rw [Ledger.views_set, Function.update_self] at hview
    cases hview
    exact Or.inr ⟨view, hopen, hseen⟩
  | lands | commitsNothing | abandons =>
    have hnone : some view' = none := hview.symm.trans (Function.update_self ..)
    cases hnone

/-- The store that looks at the commit whether the transaction may land. -/
def validated : Store ι K V where
  State := Ledger ι K V
  start table := ⟨table, fun _ => none⟩
  committed := Ledger.committed
  step := ValidatedStep

/-! ## One transaction at a time -/

/-- The committed rows and the transaction that is open, with its rows. -/
structure Serial (ι K V : Type) where
  committed : K → Option V
  current : Option (ι × (K → Option V))

inductive SerialStep : Serial ι K V → ι × Action K V → Serial ι K V → Prop where
  | begins (table : K → Option V) (i : ι) :
      SerialStep ⟨table, none⟩ (i, .begins) ⟨table, some (i, table)⟩
  | finds (table working : K → Option V) (i : ι) (key : K) :
      SerialStep ⟨table, some (i, working)⟩ (i, .finds key (working key))
        ⟨table, some (i, working)⟩
  | inserts {working : K → Option V} {key : K} (table : K → Option V) (i : ι) (value : V) :
      working key = none →
      SerialStep ⟨table, some (i, working)⟩ (i, .inserts key value)
        ⟨table, some (i, Function.update working key (some value))⟩
  | updates {working : K → Option V} {key : K} (table : K → Option V) (i : ι) (value : V) :
      working key ≠ none →
      SerialStep ⟨table, some (i, working)⟩ (i, .updates key value)
        ⟨table, some (i, Function.update working key (some value))⟩
  | lands (table working : K → Option V) (i : ι) :
      SerialStep ⟨table, some (i, working)⟩ (i, .lands) ⟨working, none⟩

/-- The store that serves one transaction after another and never fails. -/
def serial : Store ι K V where
  State := Serial ι K V
  start table := ⟨table, none⟩
  committed := Serial.committed
  step := SerialStep

end Validated

end QuizArena.Lib
