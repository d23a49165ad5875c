import QuizArena.Greet.AtMostOnce
import QuizArena.Greet.Bounded
import QuizArena.Greet.Lifetimes
import QuizArena.Greet.Locks

/-!
# Progress on Postgres

Of the calls that have not ended one can always go on without a fault, and since calls are
bounded every run can be completed. A run in which nothing fails but the inserts that lose
their race ends every call with a greeting, in at most two attempts.
-/

namespace QuizArena.Greet

open Lib Kernel

variable {ι : Type} [DecidableEq ι] {tables : UnicodeTables} {uniqueViolation : DbErr → Bool}
  {inputs : ι → String} {table : String → Option Int64}

/-! ## Progress -/

/-- A step that no fault forces: the driver does what it is asked, unless it is to insert a
    row that is there by now. -/
inductive Healthy (uniqueViolation : DbErr → Bool)
    (s : SystemState (rowLocks : Store ι String Int64)) : Label ι → Prop where
  | answers {label : Label ι} : fails label.event = false → Healthy uniqueViolation s label
  | duplicate {label : Label ι} (model : Model) (source : DbErr) :
      label.event = ⟨.statement (.write .insert model), .error source⟩ →
      uniqueViolation source = true → s.committed model.sender ≠ none →
      Healthy uniqueViolation s label

/-- A step of a call that no fault forces. -/
def HealthyStep (uniqueViolation : DbErr → Bool)
    (s : SystemState (rowLocks : Store ι String Int64)) (label : Label ι)
    (s' : SystemState (rowLocks : Store ι String Int64)) : Prop :=
  SystemStep rowLocks s label s' ∧ Healthy uniqueViolation s label

/-- The call can make such a step. -/
def CanGoOn (uniqueViolation : DbErr → Bool)
    (s : SystemState (rowLocks : Store ι String Int64)) (i : ι) : Prop :=
  ∃ label s', label.process = i ∧ HealthyStep uniqueViolation s label s'

section Progress

variable {s : SystemState (rowLocks : Store ι String Int64)} {i : ι} {sender : SenderName tables}
  {control control' : Control tables} {event : Event (Tx Greetings)}
  {action : Action String Int64}

theorem canGoOn_of_step {state : LockState ι String Int64}
    (hprogram : s.programs i = control.program uniqueViolation sender)
    (hstep : ControlStep uniqueViolation sender control event control')
    (hanswers : Answers event action) (hstore : LockStep s.store (i, action) state)
    (hhealthy : Healthy uniqueViolation s ⟨i, event, action⟩) : CanGoOn uniqueViolation s i :=
  ⟨_, _, rfl, control_step sender hprogram hstep hanswers hstore, hhealthy⟩

/-- A key that is not free somebody else has locked. -/
theorem waitsFor_of_not_free {key : String} (hasks : Asks s i key)
    (hnot : ¬ s.store.Free i key) : ∃ j, WaitsFor s i j := by
  by_contra hnone
  apply hnot
  intro j tx hj htx
  rw [Bool.eq_false_iff]
  intro hholds
  exact hnone ⟨j, hj, key, tx, hasks, htx, hholds⟩

theorem goesOn_finds {retries : Nat}
    (hprogram : s.programs i = (Control.finds retries).program uniqueViolation sender)
    (htx : s.store.txs i = some .fresh) :
    CanGoOn uniqueViolation s i ∨ ∃ j, WaitsFor s i j := by
  have hstep : ∀ row, ∃ control', ControlStep uniqueViolation sender (.finds retries)
      ⟨.statement (.find sender.asStr), .ok row⟩ control' := by
    intro row
    cases hrow : rehydrateRow tables row with
    | ok found => exact ⟨_, .finds retries hrow⟩
    | error error => exact ⟨_, .unreadable retries hrow⟩
  cases hrow : s.store.committed sender.asStr with
  | none =>
    obtain ⟨control', hcontrol⟩ := hstep (rowOf sender.asStr none)
    exact Or.inl (canGoOn_of_step hprogram hcontrol (.finds sender.asStr none)
      (LockStep.findsNone htx rfl rfl hrow) (.answers rfl))
  | some value =>
    by_cases hfree : s.store.Free i sender.asStr
    · obtain ⟨control', hcontrol⟩ := hstep (rowOf sender.asStr (some value))
      exact Or.inl (canGoOn_of_step hprogram hcontrol (.finds sender.asStr (some value))
        (LockStep.finds value htx rfl rfl hrow hfree) (.answers rfl))
    · refine Or.inr (waitsFor_of_not_free ?_ hfree)
      rw [program_finds] at hprogram
      exact ⟨_, _, hprogram, rfl⟩

/-- A write waits for its key, unless it is an insert and the row is there. -/
theorem goesOn_writes {retries : Nat} {found : Option (Greeting tables)}
    (hunique : ∃ source, uniqueViolation source = true)
    (hprogram : s.programs i = (Control.writes retries found).program uniqueViolation sender)
    (hlocks : Locks sender.asStr s.committed (.writes retries found) (s.store.txs i)) :
    CanGoOn uniqueViolation s i ∨ ∃ j, WaitsFor s i j := by
  have hkey := hlocks.key_recordOp
  by_cases hfree : s.store.Free i sender.asStr
  · left
    generalize htx : s.store.txs i = tx at hlocks
    cases hlocks with
    | inserts =>
      cases hrow : s.store.committed sender.asStr with
      | none =>
        exact canGoOn_of_step hprogram (.writes retries none) (.inserts _)
          (LockStep.inserts _ htx rfl rfl hrow hfree) (.answers rfl)
      | some value =>
        obtain ⟨source, hsource⟩ := hunique
        have hpresent : s.committed sender.asStr ≠ none := by
          show s.store.committed sender.asStr ≠ none
          rw [hrow]
          exact Option.some_ne_none value
        exact canGoOn_of_step hprogram (.writeFails retries none source) (.fails _ source)
          (LockStep.fails (fun _ => false) htx (fun _ h => by cases h))
          (.duplicate (nextGreeting sender none).toModel source rfl hsource hpresent)
    | @updates tx _ found hfound hnot honly hrow =>
      rw [← hkey] at hfree hrow
      refine canGoOn_of_step hprogram (.writes retries (some found)) (.updates _)
        (LockStep.updates _ htx hnot ?_ hfree) (.answers rfl)
      unfold overlay
      rw [ne_eq, Option.or_eq_none_iff, not_and_or]
      exact Or.inr hrow
  · refine Or.inr (waitsFor_of_not_free ?_ hfree)
    rw [program_writes] at hprogram
    exact ⟨_, _, hprogram, hkey⟩

/-- A call that has not ended can go on, or waits. -/
theorem AllLocked.goesOn (h : AllLocked tables uniqueViolation inputs s)
    (hunique : ∃ source, uniqueViolation source = true) (i : ι)
    (hrunning : ∀ outcome, ¬ s.HasOutcome i outcome) :
    CanGoOn uniqueViolation s i ∨ ∃ j, WaitsFor s i j := by
  have hi := h i
  generalize hleft : s.programs i = left at hi
  generalize htx : s.store.txs i = tx at hi
  cases hi with
  | rejected => exact absurd hleft (hrunning _)
  | @proceeds sender control tx hname hlocks =>
    cases hlocks with
    | begins retries =>
      exact Or.inl (canGoOn_of_step hleft (.begins retries) .begins (LockStep.begins htx)
        (.answers rfl))
    | finds retries => exact goesOn_finds hleft htx
    | inserts retries =>
      refine goesOn_writes hunique hleft ?_
      rw [htx]
      exact .inserts retries
    | updates retries found hfound hnot honly hrow =>
      refine goesOn_writes hunique hleft ?_
      rw [htx]
      exact .updates retries found hfound hnot honly hrow
    | commits retries greeting hnot honly =>
      exact Or.inl (canGoOn_of_step hleft (.commits retries greeting) .lands
        (LockStep.lands htx hnot) (.answers rfl))
    | rollsBack retries error honly =>
      exact Or.inl (canGoOn_of_step hleft (.rollsBack retries error (.ok ())) (.rollsBack (.ok ()))
        (LockStep.abandons htx) (.answers rfl))
    | ends outcome => exact absurd hleft (hrunning outcome)

end Progress

/-- Whoever holds a lock has not ended. -/
theorem AllLocked.running {s : SystemState (rowLocks : Store ι String Int64)} {i : ι}
    {tx : LockTx String Int64} (h : AllLocked tables uniqueViolation inputs s)
    (htx : s.store.txs i = some tx) (outcome : Except GreetError GreetOutput) :
    ¬ s.HasOutcome i outcome := by
  intro hend
  have hi := h i
  rw [show s.programs i = .pure outcome from hend, htx] at hi
  generalize hleft : (Prog.pure outcome : Prog (Tx Greetings) _) = left at hi
  cases hi with
  | proceeds _ hlocks =>
    have hends := program_eq_pure hleft.symm
    subst hends
    cases hlocks

/-- A call that has not ended can go on, or waits for one that can. -/
theorem goesOn_of_run {labels : List (Label ι)}
    {s : SystemState (rowLocks : Store ι String Int64)}
    (hunique : ∃ source, uniqueViolation source = true)
    (hrun : Run rowLocks tables uniqueViolation inputs table labels s) {i : ι}
    (hrunning : ∀ outcome, ¬ s.HasOutcome i outcome) :
    CanGoOn uniqueViolation s i ∨ ∃ j, WaitsFor s i j ∧ CanGoOn uniqueViolation s j := by
  have h := allLocked_of_run hrun
  rcases h.goesOn hunique i hrunning with hgoes | ⟨j, hwaits⟩
  · exact Or.inl hgoes
  · have hlocked := hwaits
    obtain ⟨_, key, tx, _, htx, _⟩ := hlocked
    rcases h.goesOn hunique j (h.running htx) with hgoes | ⟨k, hwaits'⟩
    · exact Or.inr ⟨j, hwaits, hgoes⟩
    · exact absurd hwaits' (not_waitsFor_of_waitsFor hrun hwaits k)

/-- What is known of every state of a run on Postgres. -/
structure Lively (uniqueViolation : DbErr → Bool)
    (s : SystemState (rowLocks : Store ι String Int64)) : Prop where
  /-- There is no deadlock: nobody waits for a call that waits. -/
  noDeadlock : ∀ i j k, WaitsFor s i j → ¬ WaitsFor s j k
  goesOn : ∀ i, (∀ outcome, ¬ s.HasOutcome i outcome) →
    CanGoOn uniqueViolation s i ∨ ∃ j, WaitsFor s i j ∧ CanGoOn uniqueViolation s j
  /-- Without further faults all calls end. -/
  completes : ∃ labels s', Trace (HealthyStep uniqueViolation) s labels s' ∧
    ∀ i, ∃ outcome, s'.HasOutcome i outcome

/-- Calls do not block one another, whatever has failed before. -/
theorem calls_stay_lively [Fintype ι] (tables : UnicodeTables) (uniqueViolation : DbErr → Bool)
    (hunique : ∃ source, uniqueViolation source = true) (inputs : ι → String)
    (table : String → Option Int64) (labels : List (Label ι))
    (s : SystemState (rowLocks : Store ι String Int64))
    (hrun : Run rowLocks tables uniqueViolation inputs table labels s) :
    Lively uniqueViolation s := by
  refine ⟨fun i j k hwaits => not_waitsFor_of_waitsFor hrun hwaits k,
    fun i hrunning => goesOn_of_run hunique hrun hrunning, ?_⟩
  have hsub : ∀ {s label s'}, HealthyStep uniqueViolation s label s' →
      SystemStep (rowLocks : Store ι String Int64) s label s' := fun h => h.1
  refine Trace.completes (fun s => ∀ i, ∃ outcome, s.HasOutcome i outcome) hsub
    (fun hrun => length_le hrun Finset.univ fun _ _ => Finset.mem_univ _) ?_ hrun
  intro labels s hrun hnot
  rw [not_forall] at hnot
  obtain ⟨i, hrunning⟩ := hnot
  rw [not_exists] at hrunning
  rcases goesOn_of_run hunique hrun hrunning with ⟨label, s', _, hstep⟩ | ⟨j, _, hgoes⟩
  · exact ⟨label, s', hstep⟩
  · obtain ⟨label, s', _, hstep⟩ := hgoes
    exact ⟨label, s', hstep⟩

theorem calls_stay_lively_race : ∃ s : SystemState (rowLocks : Store Bool String Int64),
    Lively sqlUnique s := by
  obtain ⟨s, hrun⟩ := race_runs
  exact ⟨s, calls_stay_lively .ascii sqlUnique
    ⟨.query (.sqlxError (.database (.postgres "23505"))), by decide⟩ (fun _ => "ada")
    (fun _ => none) race s hrun⟩

/-! ## Runs without faults -/

/-- The attempts that are left to a call that has met no fault: it is in its first, or in
    its second and there is a row. -/
def Tries (key : String) (committed : String → Option Int64) (retries : Nat) : Prop :=
  retries = 2 ∨ retries = 1 ∧ committed key ≠ none

theorem Tries.mono {key : String} {committed committed' : String → Option Int64} {retries : Nat}
    (h : Tries key committed retries) (hkept : committed key ≠ none → committed' key ≠ none) :
    Tries key committed' retries := by
  rcases h with h | ⟨h, hrow⟩
  · exact Or.inl h
  · exact Or.inr ⟨h, hkept hrow⟩

/-- Where a call stands that has met no fault, and how many attempts it has begun. -/
inductive Smooth (key : String) (committed : String → Option Int64) (attempts : Nat) :
    Control tables → Prop where
  | begins {retries : Nat} : Tries key committed retries → attempts + retries = 2 →
      Smooth key committed attempts (.begins retries)
  | finds {retries : Nat} : Tries key committed retries → attempts + retries = 3 →
      Smooth key committed attempts (.finds retries)
  | writes {retries : Nat} {found : Option (Greeting tables)} : Tries key committed retries →
      (found = none → retries = 2) → attempts + retries = 3 →
      Smooth key committed attempts (.writes retries found)
  | commits {retries : Nat} (greeting : Greeting tables) : Tries key committed retries →
      attempts + retries = 3 → Smooth key committed attempts (.commits retries greeting)
  | rollsBack : committed key ≠ none → attempts = 1 →
      Smooth key committed attempts (.rollsBack 2 .conflict)
  | ends (name : String) (returning : Bool) : attempts ≤ 2 →
      Smooth key committed attempts (.ends (.ok (.recorded name returning)))

theorem Smooth.mono {key : String} {committed committed' : String → Option Int64}
    {attempts : Nat} {control : Control tables} (h : Smooth key committed attempts control)
    (hkept : committed key ≠ none → committed' key ≠ none) :
    Smooth key committed' attempts control := by
  cases h with
  | begins htries hcount => exact .begins (htries.mono hkept) hcount
  | finds htries hcount => exact .finds (htries.mono hkept) hcount
  | writes htries hnone hcount => exact .writes (htries.mono hkept) hnone hcount
  | commits greeting htries hcount => exact .commits greeting (htries.mono hkept) hcount
  | rollsBack hrow hcount => exact .rollsBack (hkept hrow) hcount
  | ends name returning hcount => exact .ends name returning hcount

/-- Every row is that of an accepted name, with a count that a greeting can have. -/
def Readable (tables : UnicodeTables) (committed : String → Option Int64) : Prop :=
  ∀ name, ∃ found, rehydrateRow tables (rowOf name (committed name)) = .ok found

/-- A step of a call that no fault forces. -/
theorem Smooth.step {s s' : SystemState (rowLocks : Store ι String Int64)} {label : Label ι}
    {input : String} {sender : SenderName tables} {control control' : Control tables}
    {attempts : Nat} (hmoves : LockMoves uniqueViolation input s label s' sender control control')
    (hreadable : Readable tables s.committed) (hhealthy : Healthy uniqueViolation s label)
    (h : Smooth sender.asStr s.committed attempts control) :
    Smooth sender.asStr s'.committed (attempts + if isBegin label.event = true then 1 else 0)
      control' := by
  have hkept : s.committed sender.asStr ≠ none → s'.committed sender.asStr ≠ none :=
    committed_of_lockStep hmoves.store
  have hlocks := hmoves.locks
  have hanswers := hmoves.answers
  have hstore := hmoves.store
  have hstep := hmoves.step
  obtain ⟨i, event, action⟩ := label
  simp only at hlocks hanswers hstore hstep
  cases hstep with
  | beginFails retries source | findFails retries source | commitFails retries greeting source =>
    exfalso
    cases hhealthy with
    | answers hok => cases hok
    | duplicate model source hevent => cases hevent
  | begins retries =>
    cases h with
    | begins htries hcount =>
      refine .finds (htries.mono hkept) ?_
      show attempts + 1 + retries = 3
      omega
  | unreadable retries hrow =>
    exfalso
    rcases hlocks.step_finds hanswers hstore with ⟨rfl, _⟩ | ⟨value, rfl, hvalue, _⟩
    · cases hrow
    · obtain ⟨found, hfound⟩ := hreadable sender.asStr
      have hpresent : s.committed sender.asStr = some value := hvalue
      rw [hpresent] at hfound
      cases hrow.symm.trans hfound
  | finds retries hrow =>
    cases h with
    | finds htries hcount =>
      refine .writes (htries.mono hkept) ?_ hcount
      intro hnone
      rcases hlocks.step_finds hanswers hstore with ⟨_, _, _, habsent⟩ | ⟨value, rfl, _⟩
      · rcases htries with htwo | ⟨_, hpresent⟩
        · exact htwo
        · exact absurd habsent hpresent
      · obtain ⟨greeting, _, rfl⟩ := rehydrateRow_some hrow
        cases hnone
  | writeFails retries found source =>
    cases h with
    | writes htries hnone hcount =>
      cases hhealthy with
      | answers hok => cases hok
      | duplicate model source hevent hunique hrow =>
        cases found with
        | some found => cases hevent
        | none =>
          cases hevent
          have htwo := hnone rfl
          subst htwo
          have herror : GreetError.ofWriteErr uniqueViolation .insert source = .conflict := by
            rw [GreetError.ofWriteErr, hunique]
            rfl
          show Smooth _ _ _ (Control.rollsBack 2 (.ofWriteErr uniqueViolation .insert source))
          rw [herror]
          refine .rollsBack (hkept hrow) ?_
          show attempts + 0 = 1
          omega
  | writes retries found =>
    cases h with
    | writes htries _ hcount => exact .commits _ (htries.mono hkept) hcount
  | commits retries greeting =>
    cases h with
    | commits _ htries hcount =>
      refine .ends _ _ ?_
      show attempts + 0 ≤ 2
      rcases htries with htwo | ⟨hone, _⟩ <;> omega
  | rollsBack retries error reply =>
    cases h with
    | rollsBack hrow hcount =>
      refine .begins (Or.inr ⟨rfl, hkept hrow⟩) ?_
      show attempts + 0 + 1 = 2
      omega

/-- Every row is that of an accepted name. -/
def Named (tables : UnicodeTables) (table : String → Option Int64) : Prop :=
  ∀ name, table name ≠ none → ∃ sender, SenderName.new tables name = .ok sender

theorem readable_of_lockRun {labels : List (Label ι)}
    {s : SystemState (rowLocks : Store ι String Int64)} (htable : Countable table)
    (hnamed : Named tables table)
    (hrun : Run rowLocks tables uniqueViolation inputs table labels s) :
    Readable tables s.committed := by
  obtain ⟨t, hvalidated, hsame⟩ := hrun.refines rowLocks_refines
  have hcountable := (landed_of_run htable hvalidated).2.countable
  have hrows := named_of_run hvalidated hnamed
  rw [hsame.committed rowLocks_refines] at hcountable hrows
  intro name
  by_cases hrow : s.committed name = none
  · exact ⟨none, by rw [hrow]; rfl⟩
  · obtain ⟨sender, hname⟩ := hrows name hrow
    exact rehydrateRow_of_range (fun _ => hname) (hcountable name)

/-- Where a call of a run without faults stands. -/
structure Stands (uniqueViolation : DbErr → Bool) (labels : List (Label ι))
    (s : SystemState (rowLocks : Store ι String Int64)) (i : ι) (sender : SenderName tables)
    (control : Control tables) : Prop where
  program : s.programs i = control.program uniqueViolation sender
  locks : Locks sender.asStr s.committed control (s.store.txs i)
  smooth : Smooth sender.asStr s.committed (callsMade isBegin i labels) control

theorem Stands.step {labels : List (Label ι)} {label : Label ι} {i : ι}
    {s s' : SystemState (rowLocks : Store ι String Int64)} {sender : SenderName tables}
    {control : Control tables} (hname : SenderName.new tables (inputs i) = .ok sender)
    (hreadable : Readable tables s.committed)
    (hstep : HealthyStep uniqueViolation s label s')
    (h : Stands uniqueViolation labels s i sender control) :
    ∃ control', Stands uniqueViolation (labels ++ [label]) s' i sender control' := by
  by_cases hi : label.process = i
  · subst hi
    obtain ⟨control', hmoves⟩ := lockMoves_of_step hname h.program h.locks hstep.1
    refine ⟨control', ?_, ?_, ?_⟩
    · rw [hmoves.programs, Function.update_self]
    · exact hmoves.locks.step hmoves.step hmoves.answers hmoves.store
    · rw [callsMade_snoc]
      simp only [true_and]
      exact h.smooth.step hmoves hreadable hstep.2
  · obtain ⟨hcall, _⟩ := hstep
    cases hcall with
    | @step state program _ _ hstore =>
      have hkept : s.committed sender.asStr ≠ none → state.committed sender.asStr ≠ none :=
        committed_of_lockStep hstore
      refine ⟨control, ?_, ?_, ?_⟩
      · exact (Function.update_of_ne (Ne.symm hi) ..).trans h.program
      · show Locks sender.asStr state.committed control (state.txs i)
        rw [txs_of_others hstore (Ne.symm hi)]
        exact h.locks.mono hkept
      · rw [callsMade_snoc, if_neg fun h => hi h.1]
        exact h.smooth.mono hkept

/-- Where the calls of a run without faults stand. -/
def AllStand (tables : UnicodeTables) (uniqueViolation : DbErr → Bool) (inputs : ι → String)
    (labels : List (Label ι)) (s : SystemState (rowLocks : Store ι String Int64)) : Prop :=
  ∀ i (sender : SenderName tables), SenderName.new tables (inputs i) = .ok sender →
    ∃ control, Stands uniqueViolation labels s i sender control

theorem allStand_of_run {labels : List (Label ι)}
    {s : SystemState (rowLocks : Store ι String Int64)} (htable : Countable table)
    (hnamed : Named tables table)
    (hrun : Trace (HealthyStep uniqueViolation)
      (.start rowLocks tables uniqueViolation inputs table) labels s) :
    Run rowLocks tables uniqueViolation inputs table labels s ∧
      AllStand tables uniqueViolation inputs labels s := by
  refine Trace.history (I := fun labels s =>
    Run rowLocks tables uniqueViolation inputs table labels s ∧
      AllStand tables uniqueViolation inputs labels s) ?_ [] hrun ⟨.nil _, ?_⟩
  · intro labels s label s' h hstep
    refine ⟨Trace.append_iff.mpr ⟨s, h.1, .cons hstep.1 (.nil s')⟩, ?_⟩
    intro i sender hname
    obtain ⟨control, hstands⟩ := h.2 i sender hname
    exact hstands.step hname (readable_of_lockRun htable hnamed h.1) hstep
  · intro i sender hname
    refine ⟨.begins (maxAttempts - 1), execute_eq _ _ hname, .begins _, ?_⟩
    exact .begins (Or.inl rfl) rfl

/-- Without faults every call ends with a greeting, in one attempt or, if another one has
    inserted the row first, in two. -/
theorem one_retry_resolves (tables : UnicodeTables) (uniqueViolation : DbErr → Bool)
    (inputs : ι → String) (table : String → Option Int64) (htable : Countable table)
    (hnamed : Named tables table) (labels : List (Label ι))
    (s : SystemState (rowLocks : Store ι String Int64))
    (hrun : Trace (HealthyStep uniqueViolation)
      (.start rowLocks tables uniqueViolation inputs table) labels s)
    (i : ι) (sender : SenderName tables)
    (hname : SenderName.new tables (inputs i) = .ok sender) :
    callsMade isBegin i labels ≤ 2 ∧ ∀ outcome, s.HasOutcome i outcome →
      ∃ returning, outcome = .ok (.recorded (inputs i) returning) := by
  obtain ⟨hplain, hstand⟩ := allStand_of_run htable hnamed hrun
  obtain ⟨control, hstands⟩ := hstand i sender hname
  refine ⟨?_, ?_⟩
  · have hsmooth := hstands.smooth
    cases hsmooth with
    | begins htries hcount | finds htries hcount | writes htries _ hcount
      | commits _ htries hcount =>
      rcases htries with htwo | ⟨hone, _⟩ <;> omega
    | rollsBack _ hcount => omega
    | ends _ _ hcount => exact hcount
  · intro outcome houtcome
    have hends := program_eq_pure (hstands.program.symm.trans houtcome)
    have hsmooth := hstands.smooth
    rw [hends] at hsmooth
    cases hsmooth with
    | ends name returning =>
      obtain ⟨t, hvalidated, hsame⟩ := hplain.refines rowLocks_refines
      have hreport : t.HasOutcome i (.ok (.recorded name returning)) := by
        rw [SystemState.HasOutcome, hsame.programs]
        exact houtcome
      obtain ⟨rfl, _⟩ := (landed_of_run htable hvalidated).2.recorded i name returning hreport
      exact ⟨returning, rfl⟩

/-- The race is without faults: what fails is an insert of a row that is there. -/
theorem race_healthy : ∃ s, Trace (HealthyStep sqlUnique)
    (.start rowLocks .ascii sqlUnique (fun _ => "ada") (fun _ => none)) race s := by
  have hother : ∀ {s : LockState Bool String Int64} {key : String} (i : Bool),
      (∀ tx, s.txs (!i) = some tx → tx.holds key = false) → s.Free i key := by
    intro s key i h j tx hj htx
    have hnot : j = !i := by
      cases i <;> cases j <;> simp at hj ⊢
    exact h tx (hnot ▸ htx)
  apply Exists.intro
  apply Trace.cons
  · exact ⟨.step (.call (S := Tx Greetings) .begin _ (.ok ())) .begins (LockStep.begins rfl),
      .answers rfl⟩
  apply Trace.cons
  · exact ⟨.step (.call (S := Tx Greetings) (.statement (.find "ada")) _ (.ok none))
      (.finds "ada" none) (LockStep.findsNone rfl rfl rfl rfl), .answers rfl⟩
  apply Trace.cons
  · exact ⟨.step (.call (S := Tx Greetings) .begin _ (.ok ())) .begins (LockStep.begins rfl),
      .answers rfl⟩
  apply Trace.cons
  · exact ⟨.step (.call (S := Tx Greetings) (.statement (.find "ada")) _ (.ok none))
      (.finds "ada" none) (LockStep.findsNone rfl rfl rfl rfl), .answers rfl⟩
  apply Trace.cons
  · exact ⟨.step (.call (S := Tx Greetings) (.statement (.write .insert ⟨"ada", 1⟩)) _ (.ok ()))
      (.inserts ⟨"ada", 1⟩) (LockStep.inserts 1 rfl rfl rfl rfl (hother true fun _ h => by
        cases h
        rfl)), .answers rfl⟩
  apply Trace.cons
  · exact ⟨.step (.call (S := Tx Greetings) .commit _ (.ok ())) .lands (LockStep.lands rfl rfl),
      .answers rfl⟩
  apply Trace.cons
  · exact ⟨.step (.call (S := Tx Greetings) (.statement (.write .insert ⟨"ada", 1⟩)) _
      (.error (.query (.sqlxError (.database (.postgres "23505")))))) (.fails _ _)
      (LockStep.fails (fun _ => false) rfl (by intro key h; cases h)),
      .duplicate ⟨"ada", 1⟩ _ rfl (by decide) (Option.some_ne_none (1 : Int64))⟩
  apply Trace.cons
  · exact ⟨.step (.call (S := Tx Greetings) .rollback _ (.ok ())) (.rollsBack _)
      (LockStep.abandons rfl), .answers rfl⟩
  apply Trace.cons
  · exact ⟨.step (.call (S := Tx Greetings) .begin _ (.ok ())) .begins (LockStep.begins rfl),
      .answers rfl⟩
  apply Trace.cons
  · exact ⟨.step (.call (S := Tx Greetings) (.statement (.find "ada")) _ (.ok (some ⟨"ada", 1⟩)))
      (.finds "ada" (some 1)) (LockStep.finds 1 rfl rfl rfl rfl (hother false fun _ h => by
        cases h)), .answers rfl⟩
  apply Trace.cons
  · exact ⟨.step (.call (S := Tx Greetings) (.statement (.write .update ⟨"ada", 2⟩)) _ (.ok ()))
      (.updates ⟨"ada", 2⟩) (LockStep.updates 2 rfl rfl (Option.some_ne_none (1 : Int64))
        (hother false fun _ h => by cases h)), .answers rfl⟩
  apply Trace.cons
  · exact ⟨.step (.call (S := Tx Greetings) .commit _ (.ok ())) .lands (LockStep.lands rfl rfl),
      .answers rfl⟩
  exact .nil _

theorem one_retry_resolves_race : callsMade isBegin false race ≤ 2 ∧
    ∃ s : SystemState (rowLocks : Store Bool String Int64), ∀ outcome,
      s.HasOutcome false outcome → ∃ returning, outcome = .ok (.recorded "ada" returning) := by
  obtain ⟨s, hrun⟩ := race_healthy
  have hname : SenderName.new .ascii "ada" =
      .ok ⟨"ada", by decide, by decide, by decide⟩ := by rfl
  obtain ⟨hattempts, houtcome⟩ := one_retry_resolves .ascii sqlUnique (fun _ => "ada")
    (fun _ => none) countable_empty (fun name h => absurd rfl h) race s hrun false _ hname
  exact ⟨hattempts, s, houtcome⟩

end QuizArena.Greet
