import QuizArena.Greet.RealTime
import QuizArena.Lib.Disconnect

/-!
# Calls that are cut off

The future of a call can be dropped wherever it waits for the driver: the caller goes
away, the drain at a shutdown times out, or the process ends. Its transaction is then
abandoned, but for a commit that was already on its way. Whoever is still served cannot
tell such a call from one that failed: a run in which calls are cut off has the landings,
the rows and the answers of a run in which they ended with an error.
-/

namespace QuizArena.Greet

open Lib Kernel

variable {ι : Type} {tables : UnicodeTables} {uniqueViolation : DbErr → Bool}
  {inputs : ι → String} {table : String → Option Int64}

/-- What it means for the store that a call is cut off while it waits for an answer. -/
inductive CutsOff : (Tx Greetings).Op → Action String Int64 → Prop where
  | begin : CutsOff .begin .refuses
  | statement (op : GreetingsOp) : CutsOff (.statement op) .abandons
  | commit : CutsOff .commit .abandons
  | commitOnItsWay : CutsOff .commit .lands
  | rollback : CutsOff .rollback .abandons

/-- A step of a run in which calls may be cut off. -/
inductive CutLabel (ι : Type) where
  | call (label : Label ι)
  | cut (process : ι) (action : Action String Int64)

/-- The call that lands with a step, if one does. -/
def CutLabel.landing : CutLabel ι → Option ι
  | .call label => if label.action = .lands then some label.process else none
  | .cut process action => if action = .lands then some process else none

/-- The calls that landed, in the order in which they did. -/
def cutLandings (labels : List (CutLabel ι)) : List ι := labels.filterMap CutLabel.landing

theorem cutLandings_snoc (labels : List (CutLabel ι)) (label : CutLabel ι) :
    cutLandings (labels ++ [label]) = cutLandings labels ++ label.landing.toList := by
  unfold cutLandings
  rw [List.filterMap_append]
  cases h : label.landing <;> simp [h]

/-- The calls, the store, and which of the calls have been cut off. -/
structure CutState (store : Store ι String Int64) where
  calls : SystemState store
  cut : ι → Bool

/-- The outcome of a call that has ended. A call that was cut off has none. -/
def CutState.HasOutcome {store : Store ι String Int64} (s : CutState store) (i : ι)
    (outcome : Except GreetError GreetOutput) : Prop :=
  s.cut i = false ∧ s.calls.HasOutcome i outcome

variable [DecidableEq ι]

/-- A call makes a step, or is cut off. -/
inductive CutStep (store : Store ι String Int64) :
    CutState store → CutLabel ι → CutState store → Prop where
  | call {s : CutState store} {label : Label ι} {calls : SystemState store} :
      s.cut label.process = false → SystemStep store s.calls label calls →
      CutStep store s (.call label) ⟨calls, s.cut⟩
  | cut {s : CutState store} {i : ι} {op : (Tx Greetings).Op}
      {next : (Tx Greetings).Reply op → Prog (Tx Greetings) (Except GreetError GreetOutput)}
      {action : Action String Int64} {state : store.State} :
      s.cut i = false → s.calls.programs i = .call op next → CutsOff op action →
      store.step s.calls.store (i, action) state →
      CutStep store s (.cut i action) ⟨⟨s.calls.programs, state⟩, Function.update s.cut i true⟩

/-- The runs of any number of calls, each of which may be cut off. -/
def CutRun (store : Store ι String Int64) (tables : UnicodeTables)
    (uniqueViolation : DbErr → Bool) (inputs : ι → String) (table : String → Option Int64)
    (labels : List (CutLabel ι)) (s : CutState store) : Prop :=
  Trace (CutStep store) ⟨.start store tables uniqueViolation inputs table, fun _ => false⟩ labels s

/-! ## A call that is cut off might have failed -/

/-- What is left of the calls of a run. -/
theorem Run.program {backend : Backend} {labels : List (Label ι)}
    {s : SystemState (storeOf ι backend)}
    (hrun : Run (storeOf ι backend) tables uniqueViolation inputs table labels s) (i : ι) :
    (∃ output, s.HasOutcome i (.ok (.rejected output))) ∨
      ∃ (sender : SenderName tables) (control : Control tables),
        s.programs i = control.program uniqueViolation sender := by
  obtain ⟨R, hrefines⟩ := storeOf_refines ι backend
  obtain ⟨t, hvalidated, hsame⟩ := hrun.refines hrefines
  have hplaced : AllPlaced tables uniqueViolation inputs t :=
    AllPlaced.trace (fun i => placed_execute tables uniqueViolation (inputs i)) hvalidated
  have hi := hplaced i
  rw [hsame.programs] at hi
  generalize hleft : s.programs i = left at hi
  generalize t.store.views i = view at hi
  cases hi with
  | rejected hname => exact Or.inl ⟨_, hleft⟩
  | proceeds hname hfits => exact Or.inr ⟨_, _, rfl⟩

/-- The store does what a call that has gone away leaves it, by steps of the call that end
    it with an error. -/
structure Fails {store : Store ι String Int64} (t : SystemState store) (i : ι)
    (action : Action String Int64) (state : store.State) (labels : List (Label ι))
    (t' : SystemState store) : Prop where
  trace : Trace (SystemStep store) t labels t'
  store : t'.store = state
  others : ∀ j, j ≠ i → t'.programs j = t.programs j
  fails : ∃ error, t'.HasOutcome i (.error error)
  landings : landings labels = if action = .lands then [i] else []

/-- An error of the driver that is no contention. -/
def lostConnection : DbErr := .other "connection lost"

theorem contended_lostConnection : contended lostConnection = false := by decide

theorem GreetError.ofDbErr_lostConnection : GreetError.ofDbErr lostConnection = .internal := by
  rw [GreetError.ofDbErr, contended_lostConnection]
  rfl

theorem after_internal (retries : Nat) :
    (Control.after retries (.error .internal) : Control tables) = .ends (.error .internal) := by
  cases retries <;> rfl

section Fails

variable {store : Store ι String Int64} (sender : SenderName tables)

/-- One step of a call at a control point. -/
theorem control_step {t : SystemState store} {i : ι} {control control' : Control tables}
    {event : Event (Tx Greetings)} {action : Action String Int64} {state : store.State}
    (hprogram : t.programs i = control.program uniqueViolation sender)
    (hstep : ControlStep uniqueViolation sender control event control')
    (hanswers : Answers event action) (hstore : store.step t.store (i, action) state) :
    SystemStep store t ⟨i, event, action⟩
      ⟨Function.update t.programs i (control'.program uniqueViolation sender), state⟩ := by
  refine .step ?_ hanswers hstore
  show Prog.Step (t.programs i) event _
  rw [hprogram]
  exact step_program_iff.mpr ⟨control', hstep, rfl⟩

/-- A call whose next transaction is refused ends. -/
theorem fails_begins {t : SystemState store} {i : ι} {state : store.State} (retries : Nat)
    (hprogram : t.programs i = (Control.begins retries).program uniqueViolation sender)
    (hstore : store.step t.store (i, .refuses) state) :
    ∃ labels t', Fails t i .refuses state labels t' := by
  have hstep := control_step sender hprogram (.beginFails retries lostConnection)
    (.refuses lostConnection) hstore
  refine ⟨_, _, .cons hstep (.nil _), rfl, ?_, ⟨.internal, ?_⟩, ?_⟩
  · intro j hj
    exact Function.update_of_ne hj ..
  · show Function.update t.programs i _ i = _
    rw [Function.update_self, GreetError.ofDbErr_lostConnection, after_internal]
    rfl
  · simp [landings]

/-- A call whose transaction is over with an error ends, at the latest when another one is
    refused. -/
theorem fails_after {t : SystemState store} {i : ι} {retries : Nat} {error : GreetError}
    (hprogram : t.programs i =
      (Control.after retries (.error error)).program uniqueViolation sender)
    (hrefuses : store.step t.store (i, .refuses) t.store) :
    ∃ labels t', Fails t i .abandons t.store labels t' := by
  cases error with
  | internal =>
    rw [after_internal] at hprogram
    exact ⟨[], t, .nil t, rfl, fun _ _ => rfl, ⟨.internal, hprogram⟩, rfl⟩
  | conflict =>
    cases retries with
    | zero => exact ⟨[], t, .nil t, rfl, fun _ _ => rfl, ⟨.conflict, hprogram⟩, rfl⟩
    | succ retries =>
      obtain ⟨labels, t', h⟩ := fails_begins sender retries hprogram hrefuses
      exact ⟨labels, t', h.trace, h.store, h.others, h.fails, h.landings⟩

/-- A call that has yet to roll back does so and ends. -/
theorem fails_rollsBack (hstore : store.LetsGo) {t : SystemState store} {i : ι}
    {state : store.State} (retries : Nat) (error : GreetError)
    (hprogram : t.programs i = (Control.rollsBack retries error).program uniqueViolation sender)
    (hstep : store.step t.store (i, .abandons) state) :
    ∃ labels t', Fails t i .abandons state labels t' := by
  have hrolls := control_step sender hprogram (.rollsBack retries error (.ok ()))
    (.rollsBack (.ok ())) hstep
  obtain ⟨labels, t', h⟩ := fails_after (t := ⟨Function.update t.programs i _, state⟩) sender
    (Function.update_self ..) (hstore.refuses hstep)
  refine ⟨_, t', .cons hrolls h.trace, h.store, ?_, h.fails, ?_⟩
  · intro j hj
    rw [h.others j hj]
    exact Function.update_of_ne hj ..
  · have hnone := h.landings
    simp only [landings] at hnone ⊢
    simp [hnone]

/-- A call whose statement fails rolls back and ends. -/
theorem fails_statement (hstore : store.LetsGo) {t : SystemState store} {i : ι}
    {state : store.State} {control : Control tables} {op : GreetingsOp} {retries : Nat}
    {error : GreetError}
    (hprogram : t.programs i = control.program uniqueViolation sender)
    (hfails : ControlStep uniqueViolation sender control
      ⟨.statement op, .error lostConnection⟩ (.rollsBack retries error))
    (hstep : store.step t.store (i, .abandons) state) :
    ∃ labels t', Fails t i .abandons state labels t' := by
  obtain ⟨failed, hfailed, habandons⟩ := hstore.fails hstep
  have hfirst := control_step sender hprogram hfails (.fails op lostConnection) hfailed
  obtain ⟨labels, t', h⟩ := fails_rollsBack (t := ⟨Function.update t.programs i _, failed⟩)
    sender hstore retries error (Function.update_self ..) habandons
  refine ⟨_, t', .cons hfirst h.trace, h.store, ?_, h.fails, ?_⟩
  · intro j hj
    rw [h.others j hj]
    exact Function.update_of_ne hj ..
  · have hnone := h.landings
    simp only [landings] at hnone ⊢
    simp [hnone]

/-- A call that commits hears nothing of it, whether or not it lands, and ends. -/
theorem fails_commits {t : SystemState store} {i : ι} {action : Action String Int64}
    {state : store.State} (retries : Nat) (greeting : Greeting tables)
    (hprogram : t.programs i = (Control.commits retries greeting).program uniqueViolation sender)
    (hanswers : Answers ⟨.commit, .error lostConnection⟩ action)
    (hstep : store.step t.store (i, action) state) :
    ∃ labels t', Fails t i action state labels t' := by
  have hcommit := control_step sender hprogram (.commitFails retries greeting lostConnection)
    hanswers hstep
  refine ⟨_, _, .cons hcommit (.nil _), rfl, ?_, ⟨.internal, ?_⟩, ?_⟩
  · intro j hj
    exact Function.update_of_ne hj ..
  · show Function.update t.programs i _ i = _
    rw [Function.update_self, GreetError.ofDbErr_lostConnection, after_internal]
    rfl
  · by_cases haction : action = .lands <;> simp [landings, haction]

/-- What a call leaves behind when it is cut off it could also leave by failing. -/
theorem fails_of_cut (hstore : store.LetsGo) {t : SystemState store} {i : ι}
    {op : (Tx Greetings).Op}
    {next : (Tx Greetings).Reply op → Prog (Tx Greetings) (Except GreetError GreetOutput)}
    {action : Action String Int64} {state : store.State} {control : Control tables}
    (hprogram : t.programs i = control.program uniqueViolation sender)
    (hcall : t.programs i = .call op next) (hcut : CutsOff op action)
    (hstep : store.step t.store (i, action) state) :
    ∃ labels t', Fails t i action state labels t' := by
  have heq := hprogram.symm.trans hcall
  cases control with
  | begins retries =>
    rw [program_begins] at heq
    cases heq
    cases hcut
    exact fails_begins sender retries hprogram hstep
  | finds retries =>
    rw [program_finds] at heq
    cases heq
    cases hcut
    exact fails_statement sender hstore hprogram (.findFails retries lostConnection) hstep
  | writes retries found =>
    rw [program_writes] at heq
    cases heq
    cases hcut
    exact fails_statement sender hstore hprogram (.writeFails retries found lostConnection) hstep
  | commits retries greeting =>
    rw [program_commits] at heq
    cases heq
    cases hcut with
    | commit =>
      exact fails_commits sender retries greeting hprogram (.commitFails lostConnection) hstep
    | commitOnItsWay =>
      exact fails_commits sender retries greeting hprogram
        (.landsUnheard lostConnection contended_lostConnection) hstep
  | rollsBack retries error =>
    rw [program_rollsBack] at heq
    cases heq
    cases hcut
    exact fails_rollsBack sender hstore retries error hprogram hstep
  | ends outcome => cases heq

end Fails

/-! ## Runs -/

/-- Two states that differ in the calls that were cut off: in the second they have
    failed. -/
structure SameButCut {store : Store ι String Int64} (s : CutState store) (t : SystemState store) :
    Prop where
  store : t.store = s.calls.store
  running : ∀ i, s.cut i = false → t.programs i = s.calls.programs i
  failed : ∀ i, s.cut i = true → ∃ error, t.HasOutcome i (.error error)

theorem SameButCut.call {store : Store ι String Int64} {s : CutState store}
    {t : SystemState store} {label : Label ι} {calls : SystemState store} (h : SameButCut s t)
    (hcut : s.cut label.process = false) (hstep : SystemStep store s.calls label calls) :
    ∃ t', SystemStep store t label t' ∧ SameButCut ⟨calls, s.cut⟩ t' := by
  cases hstep with
  | @step state program hprogram hanswers hstore =>
    rw [← h.running _ hcut] at hprogram
    rw [← h.store] at hstore
    refine ⟨_, .step hprogram hanswers hstore, rfl, ?_, ?_⟩
    · intro i hi
      by_cases heq : i = label.process
      · subst heq
        simp only [Function.update_self]
      · simp only [Function.update_of_ne heq]
        exact h.running i hi
    · intro i hi
      have heq : i ≠ label.process := by
        intro heq
        rw [heq, hcut] at hi
        cases hi
      obtain ⟨error, herror⟩ := h.failed i hi
      exact ⟨error, (Function.update_of_ne heq ..).trans herror⟩

theorem SameButCut.cut {store : Store ι String Int64} {s : CutState store}
    {t t' : SystemState store} {i : ι} {action : Action String Int64} {state : store.State}
    {labels : List (Label ι)} (h : SameButCut s t) (hfails : Fails t i action state labels t') :
    SameButCut ⟨⟨s.calls.programs, state⟩, Function.update s.cut i true⟩ t' := by
  refine ⟨hfails.store, ?_, ?_⟩
  · intro j hj
    have hji : j ≠ i := by
      intro hji
      subst hji
      simp only [Function.update_self] at hj
      cases hj
    simp only [Function.update_of_ne hji] at hj
    rw [hfails.others j hji]
    exact h.running j hj
  · intro j hj
    by_cases hji : j = i
    · subst hji
      exact hfails.fails
    · simp only [Function.update_of_ne hji] at hj
      obtain ⟨error, herror⟩ := h.failed j hj
      exact ⟨error, (hfails.others j hji).trans herror⟩

/-- A run in which the calls that were cut off have failed instead. -/
def Replayed (store : Store ι String Int64) (tables : UnicodeTables)
    (uniqueViolation : DbErr → Bool) (inputs : ι → String) (table : String → Option Int64)
    (labels : List (CutLabel ι)) (s : CutState store) : Prop :=
  ∃ labels' t, Run store tables uniqueViolation inputs table labels' t ∧
    landings labels' = cutLandings labels ∧ SameButCut s t

theorem storeOf_letsGo (ι : Type) [DecidableEq ι] (backend : Backend) :
    (storeOf ι backend).LetsGo := by
  cases backend with
  | postgres => exact rowLocks_letsGo
  | sqlite => exact snapshots_letsGo

theorem Replayed.step {backend : Backend} {labels : List (CutLabel ι)} {label : CutLabel ι}
    {s s' : CutState (storeOf ι backend)}
    (h : Replayed (storeOf ι backend) tables uniqueViolation inputs table labels s)
    (hstep : CutStep (storeOf ι backend) s label s') :
    Replayed (storeOf ι backend) tables uniqueViolation inputs table (labels ++ [label]) s' := by
  obtain ⟨labels', t, hrun, hlandings, hsame⟩ := h
  cases hstep with
  | @call label calls hcut hcall =>
    obtain ⟨t', hcall', hsame'⟩ := hsame.call hcut hcall
    refine ⟨labels' ++ [label], t', Trace.append_iff.mpr ⟨t, hrun, .cons hcall' (.nil t')⟩, ?_,
      hsame'⟩
    rw [landings_append, cutLandings_snoc, hlandings, CutLabel.landing]
    by_cases haction : label.action = .lands <;> simp [landings, haction]
  | @cut i op next action state hrunning hprogram hcuts hstore =>
    rw [← hsame.running i hrunning] at hprogram
    rw [← hsame.store] at hstore
    rcases hrun.program i with ⟨rejection, hrejected⟩ | ⟨sender, control, hcontrol⟩
    · cases hrejected.symm.trans hprogram
    · obtain ⟨steps, t', hfails⟩ := fails_of_cut sender (storeOf_letsGo ι backend) hcontrol
        hprogram hcuts hstore
      refine ⟨labels' ++ steps, t', Trace.append_iff.mpr ⟨t, hrun, hfails.trace⟩, ?_,
        hsame.cut hfails⟩
      rw [landings_append, cutLandings_snoc, hlandings, hfails.landings, CutLabel.landing]
      by_cases haction : action = .lands <;> simp [haction]

/-- Every run in which calls are cut off is one in which they fail. -/
theorem replayed_of_cutRun {backend : Backend} {labels : List (CutLabel ι)}
    {s : CutState (storeOf ι backend)}
    (hrun : CutRun (storeOf ι backend) tables uniqueViolation inputs table labels s) :
    Replayed (storeOf ι backend) tables uniqueViolation inputs table labels s := by
  refine Trace.history (fun h hstep => h.step hstep) [] hrun ?_
  refine ⟨[], _, .nil _, rfl, rfl, fun _ _ => rfl, ?_⟩
  intro i hi
  cases hi

omit [DecidableEq ι] in
theorem CutState.HasOutcome.same {store : Store ι String Int64} {s : CutState store}
    {t : SystemState store} {i : ι} {outcome : Except GreetError GreetOutput}
    (h : s.HasOutcome i outcome) (hsame : SameButCut s t) : t.HasOutcome i outcome :=
  (hsame.running i h.1).trans h.2

/-- What has landed by then, in a run over the store that validates at the commit. -/
structure LandedBy (tables : UnicodeTables) (uniqueViolation : DbErr → Bool) (inputs : ι → String)
    (table : String → Option Int64) (landed : List ι) (committed : String → Option Int64)
    (HasOutcome : ι → Except GreetError GreetOutput → Prop) (labels : List (Label ι))
    (t : SystemState (validated : Store ι String Int64)) : Prop where
  run : Run validated tables uniqueViolation inputs table labels t
  landings : landings labels = landed
  committed : t.committed = committed
  outcome : ∀ i outcome, HasOutcome i outcome → t.HasOutcome i outcome

theorem landedBy_of_cutRun {backend : Backend} {labels : List (CutLabel ι)}
    {s : CutState (storeOf ι backend)}
    (hrun : CutRun (storeOf ι backend) tables uniqueViolation inputs table labels s) :
    ∃ labels' t, LandedBy tables uniqueViolation inputs table (cutLandings labels)
      s.calls.committed s.HasOutcome labels' t := by
  obtain ⟨labels', t, hrun', hlandings, hsame⟩ := replayed_of_cutRun hrun
  obtain ⟨R, hrefines⟩ := storeOf_refines ι backend
  obtain ⟨u, hvalidated, hcalls⟩ := hrun'.refines hrefines
  refine ⟨labels', u, hvalidated, hlandings, ?_, ?_⟩
  · rw [hcalls.committed hrefines, SystemState.committed, hsame.store]
    rfl
  · intro i outcome hi
    rw [SystemState.HasOutcome, hcalls.programs]
    exact hi.same hsame

/-- What is known of a run in which calls are cut off. -/
structure CutSafe {store : Store ι String Int64} (tables : UnicodeTables)
    (uniqueViolation : DbErr → Bool) (inputs : ι → String) (table : String → Option Int64)
    (labels : List (CutLabel ι)) (s : CutState store) : Prop where
  replayed : Replayed store tables uniqueViolation inputs table labels s
  once : (cutLandings labels).Nodup
  counts : ∀ name, countOf (s.calls.committed name) = min maxCount
    (countOf (table name) + (cutLandings labels).countP fun i => inputs i = name)
  countable : Countable s.calls.committed
  /-- A call that is answered with a greeting has landed, and counts on from what had
      landed before, the calls that were cut off included. -/
  recorded : ∀ i name returning, s.HasOutcome i (.ok (.recorded name returning)) →
    name = inputs i ∧ ∃ before after, cutLandings labels = before ++ i :: after ∧
      (returning = true ↔ table (inputs i) ≠ none ∨ ∃ j ∈ before, inputs j = inputs i)
  unlanded : ∀ i, (∃ rejection, s.HasOutcome i (.ok (.rejected rejection))) ∨
    s.HasOutcome i (.error .conflict) → i ∉ cutLandings labels

/-- Calls may be cut off wherever they wait, on either database. -/
theorem calls_may_be_cut_off (backend : Backend) (tables : UnicodeTables)
    (uniqueViolation : DbErr → Bool) (inputs : ι → String) (table : String → Option Int64)
    (htable : Countable table) (labels : List (CutLabel ι)) (s : CutState (storeOf ι backend))
    (hrun : CutRun (storeOf ι backend) tables uniqueViolation inputs table labels s) :
    CutSafe tables uniqueViolation inputs table labels s := by
  obtain ⟨labels', t, h⟩ := landedBy_of_cutRun hrun
  have hlanded := (landed_of_run htable h.run).2
  obtain ⟨honce, hended, hcounts, hcountable, hrecorded⟩ := hlanded
  rw [h.landings] at honce hended
  refine ⟨replayed_of_cutRun hrun, honce, ?_, ?_, ?_, ?_⟩
  · intro name
    rw [← h.committed, hcounts, h.landings]
  · rw [← h.committed]
    exact hcountable
  · intro i name returning hi
    rw [← h.landings]
    exact hrecorded i name returning (h.outcome i _ hi)
  · intro i hi hmem
    rcases hended i hmem with hinternal | ⟨name, returning, hend⟩
    · rcases hi with ⟨rejection, hi⟩ | hi
      · cases hinternal.symm.trans (h.outcome i _ hi)
      · cases hinternal.symm.trans (h.outcome i _ hi)
    · rcases hi with ⟨rejection, hi⟩ | hi
      · cases hend.symm.trans (h.outcome i _ hi)
      · cases hend.symm.trans (h.outcome i _ hi)

/-- A call is cut off when its commit is on its way, and the next one of its sender comes
    back. -/
def cutAtCommit : List (CutLabel Bool) :=
  [.call ⟨true, ⟨.begin, .ok ()⟩, .begins⟩,
    .call ⟨true, ⟨.statement (.find "ada"), .ok none⟩, .finds "ada" none⟩,
    .call ⟨true, ⟨.statement (.write .insert ⟨"ada", 1⟩), .ok ()⟩, .inserts "ada" 1⟩,
    .cut true .lands,
    .call ⟨false, ⟨.begin, .ok ()⟩, .begins⟩,
    .call ⟨false, ⟨.statement (.find "ada"), .ok (some ⟨"ada", 1⟩)⟩, .finds "ada" (some 1)⟩,
    .cut false .abandons]

theorem cutAtCommit_runs : ∃ s, CutRun (storeOf Bool .postgres) .ascii sqlUnique
    (fun _ => "ada") (fun _ => none) cutAtCommit s := by
  apply Exists.intro
  apply Trace.cons
  · exact .call rfl
      (.step (.call (S := Tx Greetings) .begin _ (.ok ())) .begins (LockStep.begins rfl))
  apply Trace.cons
  · exact .call rfl (.step (.call (S := Tx Greetings) (.statement (.find "ada")) _ (.ok none))
      (.finds "ada" none) (LockStep.findsNone rfl rfl rfl rfl))
  apply Trace.cons
  · exact .call rfl (.step
      (.call (S := Tx Greetings) (.statement (.write .insert ⟨"ada", 1⟩)) _ (.ok ()))
      (.inserts ⟨"ada", 1⟩) (LockStep.inserts 1 rfl rfl rfl rfl fun j tx hj htx => by
        cases j
        · cases htx
        · exact absurd rfl hj))
  apply Trace.cons
  · exact .cut rfl rfl .commitOnItsWay (LockStep.lands rfl rfl)
  apply Trace.cons
  · exact .call rfl
      (.step (.call (S := Tx Greetings) .begin _ (.ok ())) .begins (LockStep.begins rfl))
  apply Trace.cons
  · exact .call rfl (.step
      (.call (S := Tx Greetings) (.statement (.find "ada")) _ (.ok (some ⟨"ada", 1⟩)))
      (.finds "ada" (some 1)) (LockStep.finds 1 rfl rfl rfl rfl fun j tx hj htx => by
        cases j
        · exact absurd rfl hj
        · cases htx))
  apply Trace.cons
  · exact .cut rfl rfl (.statement _) (LockStep.abandons rfl)
  exact .nil _

theorem calls_may_be_cut_off_commit : ∃ s : CutState (storeOf Bool .postgres),
    CutSafe .ascii sqlUnique (fun _ => "ada") (fun _ => none) cutAtCommit s ∧
      cutLandings cutAtCommit = [true] := by
  obtain ⟨s, hrun⟩ := cutAtCommit_runs
  exact ⟨s, calls_may_be_cut_off .postgres .ascii sqlUnique (fun _ => "ada") (fun _ => none)
    countable_empty cutAtCommit s hrun, rfl⟩

end QuizArena.Greet
