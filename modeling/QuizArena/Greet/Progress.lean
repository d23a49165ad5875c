import QuizArena.Greet.System

/-!
# Where a call stands and what its transaction knows

The invariant of a call over the store that validates at the commit: between two steps
its transaction has been told of the row of its sender and of nothing else, and has
written nothing but that row. A call that lands has therefore counted on from the row
that was committed right before.
-/

namespace QuizArena.Greet

open Lib Kernel

variable {tables : UnicodeTables} {uniqueViolation : DbErr → Bool}

/-- The transaction of a call at each of its control points. -/
inductive Fits (sender : SenderName tables) :
    Control tables → Option (View String Int64) → Prop where
  | begins (retries : Nat) : Fits sender (.begins retries) none
  | finds (retries : Nat) : Fits sender (.finds retries) (some .fresh)
  | writes {row : Option Int64} {found : Option (Greeting tables)} (retries : Nat) :
      rehydrateRow tables (rowOf sender.asStr row) = .ok found →
      Fits sender (.writes retries found) (some (View.fresh.find sender.asStr row))
  | commits {row : Option Int64} {found : Option (Greeting tables)} {view : View String Int64}
      (retries : Nat) : rehydrateRow tables (rowOf sender.asStr row) = .ok found →
      view.failed = false → view.seen sender.asStr = some row →
      view.pending = Function.update (fun _ => none) sender.asStr
        (some (i64From (nextGreeting sender found).timesGreeted)) →
      Fits sender (.commits retries (nextGreeting sender found)) (some view)
  | rollsBack (retries : Nat) (error : GreetError) (view : View String Int64) :
      Fits sender (.rollsBack retries error) (some view)
  | ends (outcome : Except GreetError GreetOutput) : Fits sender (.ends outcome) none

/-- Nothing is open after an attempt. -/
theorem Fits.after (sender : SenderName tables) (retries : Nat)
    (outcome : Except GreetError (Greeting tables)) :
    Fits sender (.after retries outcome) none := by
  cases outcome with
  | ok greeting => exact .ends _
  | error error =>
    cases error with
    | internal => cases retries <;> exact .ends _
    | conflict =>
      cases retries with
      | zero => exact .ends _
      | succ retries => exact .begins retries

/-- An attempt that failed does not lead to a greeting. -/
theorem after_error_ne (retries : Nat) (error : GreetError) (output : GreetOutput) :
    (Control.after retries (.error error) : Control tables) ≠ .ends (.ok output) := by
  intro h
  cases error with
  | internal => cases retries <;> cases h
  | conflict => cases retries <;> cases h

/-- What was found says whether there was a row. -/
theorem rehydrateRow_none_iff {row : Option Model} {found : Option (Greeting tables)}
    (h : rehydrateRow tables row = .ok found) : found = none ↔ row = none := by
  cases row with
  | none =>
    cases h
    simp
  | some model =>
    obtain ⟨greeting, _, rfl⟩ := rehydrateRow_some h
    simp

theorem rowOf_eq_none {key : String} {row : Option Int64} : rowOf key row = none ↔ row = none :=
  Option.map_eq_none_iff

/-- A greeting that was found under a name is that sender's. -/
theorem sender_nextGreeting {sender : SenderName tables} {row : Option Int64}
    {found : Option (Greeting tables)}
    (h : rehydrateRow tables (rowOf sender.asStr row) = .ok found) :
    (nextGreeting sender found).sender = sender := by
  cases row with
  | none =>
    cases h
    rfl
  | some count =>
    obtain ⟨greeting, hmodel, rfl⟩ := rehydrateRow_some h
    exact SenderName.ext (rehydrate_ok hmodel).1

/-- The count that a call records. -/
def nextCount (sender : SenderName tables) (found : Option (Greeting tables)) : Int64 :=
  i64From (nextGreeting sender found).timesGreeted

theorem toModel_nextGreeting {sender : SenderName tables} {row : Option Int64}
    {found : Option (Greeting tables)}
    (h : rehydrateRow tables (rowOf sender.asStr row) = .ok found) :
    (nextGreeting sender found).toModel = ⟨sender.asStr, nextCount sender found⟩ := by
  rw [Greeting.toModel, sender_nextGreeting h]
  rfl

section Steps

variable {ι : Type} [DecidableEq ι] {sender : SenderName tables}
  {s s' : Ledger ι String Int64} {i : ι} {control control' : Control tables}
  {event : Event (Tx Greetings)} {action : Action String Int64}

/-- The lookup of a call. -/
theorem Fits.step_finds {retries : Nat} {row : Option Model} {found : Option (Greeting tables)}
    (hfits : Fits sender (.finds retries) (s.views i)) (hrow : rehydrateRow tables row = .ok found)
    (hanswers : Answers ⟨.statement (.find sender.asStr), .ok row⟩ action)
    (hstep : ValidatedStep s (i, action) s') :
    Fits sender (.writes retries found) (s'.views i) := by
  generalize hview : s.views i = view at hfits
  cases hfits
  cases hanswers with
  | finds key row =>
    cases hstep with
    | finds _ _ hopen =>
      rw [hview] at hopen
      cases hopen
      rw [Ledger.views_set, Function.update_self]
      exact .writes retries hrow

/-- The statement of a call that records its greeting. -/
theorem Fits.step_writes {retries : Nat} {found : Option (Greeting tables)}
    (hfits : Fits sender (.writes retries found) (s.views i))
    (hanswers : Answers ⟨.statement (recordOp sender found), .ok ()⟩ action)
    (hstep : ValidatedStep s (i, action) s') :
    Fits sender (.commits retries (nextGreeting sender found)) (s'.views i) := by
  generalize hview : s.views i = view at hfits
  cases hfits with
  | @writes row _ _ hrow =>
    have hmodel := toModel_nextGreeting hrow
    unfold recordOp at hanswers
    rw [hmodel] at hanswers
    cases found with
    | none =>
      have hnone : row = none := rowOf_eq_none.mp ((rehydrateRow_none_iff hrow).mp rfl)
      cases hanswers with
      | inserts =>
        cases hstep with
        | inserts _ _ hopen =>
          rw [hview] at hopen
          cases hopen
          rw [Ledger.views_set, Function.update_self]
          refine .commits retries hrow rfl ?_ rfl
          rw [hnone]
          exact Function.update_self ..
    | some greeting =>
      cases hanswers with
      | updates =>
        cases hstep with
        | updates _ _ hopen =>
          rw [hview] at hopen
          cases hopen
          rw [Ledger.views_set, Function.update_self]
          refine .commits retries hrow rfl ?_ rfl
          have hsome : row ≠ none := by
            intro hnone
            cases (rehydrateRow_none_iff hrow).mpr (rowOf_eq_none.mpr hnone)
          obtain ⟨count, rfl⟩ := Option.ne_none_iff_exists'.mp hsome
          simp [View.find, View.update, View.fresh]

/-- A call that has no transaction can only begin one. -/
theorem views_of_begin (hview : s.views i = none) (hstep : ValidatedStep s (i, action) s') :
    action = .begins ∧ s'.views i = some .fresh ∨ action = .refuses ∧ s'.views i = none := by
  cases hstep with
  | begins => exact Or.inl ⟨rfl, Function.update_self ..⟩
  | refuses => exact Or.inr ⟨rfl, hview⟩
  | finds _ _ hopen | inserts _ _ hopen | updates _ _ hopen | fails hopen | lands hopen
    | commitsNothing hopen | abandons hopen =>
    rw [hview] at hopen
    cases hopen

/-- The end of a transaction. -/
theorem views_of_end (haction : action = .lands ∨ action = .commitsNothing ∨ action = .abandons)
    (hstep : ValidatedStep s (i, action) s') : s'.views i = none := by
  cases hstep with
  | lands | commitsNothing | abandons => exact Function.update_self ..
  | begins | refuses | finds | inserts | updates | fails => simp at haction

theorem Fits.step (hfits : Fits sender control (s.views i))
    (hcontrol : ControlStep uniqueViolation sender control event control')
    (hanswers : Answers event action) (hstep : ValidatedStep s (i, action) s') :
    Fits sender control' (s'.views i) := by
  cases hcontrol with
  | beginFails retries source =>
    generalize hview : s.views i = view at hfits
    cases hfits
    cases hanswers
    rcases views_of_begin hview hstep with ⟨haction, _⟩ | ⟨_, hview'⟩
    · cases haction
    · rw [hview']
      exact .after sender retries _
  | begins retries =>
    generalize hview : s.views i = view at hfits
    cases hfits
    cases hanswers
    rcases views_of_begin hview hstep with ⟨_, hview'⟩ | ⟨haction, _⟩
    · rw [hview']
      exact .finds retries
    · cases haction
  | findFails retries source | writeFails retries found source =>
    have haction := hanswers.fails_eq
    subst haction
    cases hstep with
    | fails =>
      rw [Ledger.views_set, Function.update_self]
      exact .rollsBack retries _ _
  | unreadable retries hrow =>
    cases hanswers
    cases hstep with
    | finds =>
      rw [Ledger.views_set, Function.update_self]
      exact .rollsBack retries _ _
  | finds retries hrow => exact hfits.step_finds hrow hanswers hstep
  | writes retries found => exact hfits.step_writes hanswers hstep
  | commitFails retries greeting source =>
    have hend : s'.views i = none := by
      cases hanswers with
      | landsUnheard => exact views_of_end (Or.inl rfl) hstep
      | commitFails => exact views_of_end (Or.inr (Or.inr rfl)) hstep
    rw [hend]
    exact .after sender retries _
  | commits retries greeting =>
    have hend : s'.views i = none := by
      cases hanswers with
      | lands => exact views_of_end (Or.inl rfl) hstep
      | commitsNothing => exact views_of_end (Or.inr (Or.inl rfl)) hstep
    rw [hend]
    exact .ends _
  | rollsBack retries error reply =>
    have hend : s'.views i = none := by
      cases hanswers
      exact views_of_end (Or.inr (Or.inr rfl)) hstep
    rw [hend]
    exact .after sender retries _

/-- A call lands by counting on from the row that was committed, and then ends. -/
theorem Fits.lands (hfits : Fits sender control (s.views i))
    (hcontrol : ControlStep uniqueViolation sender control event control')
    (hanswers : Answers event .lands) (hstep : ValidatedStep s (i, .lands) s') :
    ∃ found, rehydrateRow tables (rowOf sender.asStr (s.committed sender.asStr)) = .ok found ∧
      s'.committed =
        Function.update s.committed sender.asStr (some (nextCount sender found)) ∧
      (control' = .ends (.ok (recorded (nextGreeting sender found))) ∨
        control' = .ends (.error .internal)) := by
  have hcommits : ∃ retries greeting, control = .commits retries greeting ∧
      (control' = .ends (.ok (recorded greeting)) ∨ control' = .ends (.error .internal)) := by
    rcases hanswers.commit_of_lands with rfl | ⟨source, hsource, rfl⟩
    · cases hcontrol with
      | commits retries greeting => exact ⟨retries, greeting, rfl, Or.inl rfl⟩
    · cases hcontrol with
      | commitFails retries greeting source =>
        refine ⟨retries, greeting, rfl, Or.inr ?_⟩
        rw [GreetError.ofDbErr, hsource]
        cases retries <;> rfl
  obtain ⟨retries, greeting, rfl, hends⟩ := hcommits
  generalize hview : s.views i = view at hfits
  cases hfits with
  | @commits row found view _ hrow hfailed hseen hpending =>
    cases hstep with
    | lands hopen hvalid =>
      rw [hview] at hopen
      cases hopen
      have hwritten : view.pending sender.asStr ≠ none := by
        rw [hpending, Function.update_self]
        exact Option.some_ne_none _
      rw [hvalid _ _ hseen hwritten]
      refine ⟨found, hrow, ?_, hends⟩
      show overlay view.pending s.committed = _
      rw [hpending]
      exact overlay_update ..

/-- A commit that goes through has landed. -/
theorem Fits.not_commitsNothing (hfits : Fits sender control (s.views i))
    (hcontrol : ControlStep uniqueViolation sender control event control')
    (hanswers : Answers event .commitsNothing) : ¬ ValidatedStep s (i, .commitsNothing) s' := by
  intro hstep
  cases hanswers
  cases hcontrol
  generalize hview : s.views i = view at hfits
  cases hfits with
  | commits _ _ hfailed =>
    cases hstep with
    | commitsNothing hopen hfailed' =>
      rw [hview] at hopen
      cases hopen
      rw [hfailed] at hfailed'
      cases hfailed'

/-- A call ends with a greeting only by landing it. -/
theorem Fits.recorded_lands {name : String} {returning : Bool}
    (hfits : Fits sender control (s.views i))
    (hcontrol : ControlStep uniqueViolation sender control event
      (.ends (.ok (.recorded name returning))))
    (hanswers : Answers event action) (hstep : ValidatedStep s (i, action) s') :
    action = .lands := by
  have hcommit : event = ⟨.commit, .ok ()⟩ := by
    generalize hends : (Control.ends (.ok (.recorded name returning)) : Control tables) = control'
      at hcontrol
    cases hcontrol with
    | commits => rfl
    | begins | findFails | unreadable | finds | writeFails | writes => cases hends
    | beginFails retries source | commitFails retries _ source =>
      exact absurd hends.symm (after_error_ne retries _ _)
    | rollsBack retries error => exact absurd hends.symm (after_error_ne retries _ _)
  subst hcommit
  cases hanswers with
  | lands => rfl
  | commitsNothing => exact absurd hstep (hfits.not_commitsNothing hcontrol .commitsNothing)

end Steps

/-! ## A call over the store -/

/-- What is left of a call and its transaction. -/
inductive Placed (tables : UnicodeTables) (uniqueViolation : DbErr → Bool) (input : String) :
    Prog (Tx Greetings) (Except GreetError GreetOutput) → Option (View String Int64) → Prop where
  | rejected {error : SenderNameError} : SenderName.new tables input = .error error →
      Placed tables uniqueViolation input (.pure (.ok (.rejected (.ofSenderNameError error)))) none
  | proceeds {sender : SenderName tables} {control : Control tables}
      {view : Option (View String Int64)} : SenderName.new tables input = .ok sender →
      Fits sender control view →
      Placed tables uniqueViolation input (control.program uniqueViolation sender) view

theorem placed_execute (tables : UnicodeTables) (uniqueViolation : DbErr → Bool)
    (input : String) : Placed tables uniqueViolation input (execute tables uniqueViolation input)
      none := by
  cases hname : SenderName.new tables input with
  | error error =>
    rw [execute, hname]
    exact .rejected hname
  | ok sender =>
    rw [execute_eq _ _ hname]
    exact .proceeds hname (.begins _)

end QuizArena.Greet
