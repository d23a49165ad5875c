import QuizArena.Greet.System

/-!
# Locks of calls on Postgres

A call locks the row of its sender and no other one, and it waits only for that row, so
whoever holds a lock waits for nobody.
-/

namespace QuizArena.Greet

open Lib Kernel

variable {ι : Type} {tables : UnicodeTables} {uniqueViolation : DbErr → Bool}
  {inputs : ι → String} {table : String → Option Int64}

/-! ## What a call has locked -/

/-- The key whose row a statement is about. -/
def GreetingsOp.key : GreetingsOp → String
  | .find sender => sender
  | .write _ model => model.sender

/-- A transaction that has locked no other key. -/
def Only (key : String) (tx : LockTx String Int64) : Prop :=
  ∀ key', tx.holds key' = true → key' = key

/-- The transaction of a call at each of its control points, and its locks. -/
inductive Locks (key : String) (committed : String → Option Int64) :
    Control tables → Option (LockTx String Int64) → Prop where
  | begins (retries : Nat) : Locks key committed (.begins retries) none
  | finds (retries : Nat) : Locks key committed (.finds retries) (some .fresh)
  | inserts (retries : Nat) : Locks key committed (.writes retries none) (some .fresh)
  | updates {tx : LockTx String Int64} (retries : Nat) (found : Greeting tables) :
      found.sender.asStr = key → tx.aborted = false → Only key tx → committed key ≠ none →
      Locks key committed (.writes retries (some found)) (some tx)
  | commits {tx : LockTx String Int64} (retries : Nat) (greeting : Greeting tables) :
      tx.aborted = false → Only key tx →
      Locks key committed (.commits retries greeting) (some tx)
  | rollsBack {tx : LockTx String Int64} (retries : Nat) (error : GreetError) : Only key tx →
      Locks key committed (.rollsBack retries error) (some tx)
  | ends (outcome : Except GreetError GreetOutput) : Locks key committed (.ends outcome) none

theorem only_fresh (key : String) : Only key .fresh := by
  intro key' hholds
  cases hholds

theorem Only.lock {key : String} {tx : LockTx String Int64} (h : Only key tx) :
    Only key (tx.lock key) := by
  intro key' hholds
  by_cases hkey : key' = key
  · exact hkey
  · rw [LockTx.lock] at hholds
    simp only [Function.update_of_ne hkey] at hholds
    exact h key' hholds

theorem Only.write {key : String} {tx : LockTx String Int64} (h : Only key tx) (value : Int64) :
    Only key (tx.write key value) := h.lock

/-- A call has locked its own key at most. -/
theorem Locks.only {key : String} {committed : String → Option Int64} {control : Control tables}
    {tx : LockTx String Int64} (h : Locks key committed control (some tx)) : Only key tx := by
  cases h with
  | finds | inserts => exact only_fresh key
  | updates _ _ _ _ honly | commits _ _ _ honly | rollsBack _ _ honly => exact honly

/-- Rows that do not go away keep what a call has locked. -/
theorem Locks.mono {key : String} {committed committed' : String → Option Int64}
    {control : Control tables} {tx : Option (LockTx String Int64)}
    (h : Locks key committed control tx) (hkept : committed key ≠ none → committed' key ≠ none) :
    Locks key committed' control tx := by
  cases h with
  | begins retries => exact .begins retries
  | finds retries => exact .finds retries
  | inserts retries => exact .inserts retries
  | updates retries found hfound hnot honly hrow =>
    exact .updates retries found hfound hnot honly (hkept hrow)
  | commits retries greeting hnot honly => exact .commits retries greeting hnot honly
  | rollsBack retries error honly => exact .rollsBack retries error honly
  | ends outcome => exact .ends outcome

/-- Nothing is locked after an attempt. -/
theorem Locks.after (key : String) (committed : String → Option Int64) (retries : Nat)
    (error : GreetError) :
    Locks key committed (.after retries (.error error) : Control tables) none := by
  cases error with
  | internal => cases retries <;> exact .ends _
  | conflict =>
    cases retries with
    | zero => exact .ends _
    | succ retries => exact .begins retries

theorem txs_set_self [DecidableEq ι] (s : LockState ι String Int64) (i : ι)
    (tx : Option (LockTx String Int64)) : (s.set i tx).txs i = tx := Function.update_self ..

section Steps

variable [DecidableEq ι] {sender : SenderName tables} {s s' : LockState ι String Int64} {i : ι}
  {control control' : Control tables} {event : Event (Tx Greetings)}
  {action : Action String Int64}

/-- A lookup that finds a row has locked it, and one that finds none has locked nothing. -/
theorem Locks.step_finds {retries : Nat} {row : Option Model}
    (hlocks : Locks sender.asStr s.committed (.finds retries : Control tables) (s.txs i))
    (hanswers : Answers ⟨.statement (.find sender.asStr), .ok row⟩ action)
    (hstep : LockStep s (i, action) s') :
    (row = none ∧ s' = s ∧ s.txs i = some .fresh ∧ s.committed sender.asStr = none) ∨
      ∃ value, row = some ⟨sender.asStr, value⟩ ∧ s.committed sender.asStr = some value ∧
        s' = s.set i (some (LockTx.fresh.lock sender.asStr)) := by
  generalize htx : s.txs i = tx at hlocks
  cases hlocks
  cases hanswers with
  | finds key row =>
    cases hstep with
    | findsOwn value hopen _ hown =>
      rw [htx] at hopen
      cases hopen
      cases hown
    | findsNone hopen _ _ hrow => exact Or.inl ⟨rfl, rfl, rfl, hrow⟩
    | finds value hopen _ _ hrow =>
      rw [htx] at hopen
      cases hopen
      exact Or.inr ⟨value, rfl, hrow, rfl⟩

/-- The statement of a call that records its greeting is about its key. -/
theorem Locks.key_recordOp {committed : String → Option Int64} {retries : Nat}
    {found : Option (Greeting tables)} {tx : Option (LockTx String Int64)}
    (hlocks : Locks sender.asStr committed (.writes retries found) tx) :
    (recordOp sender found).key = sender.asStr := by
  cases hlocks with
  | inserts => rfl
  | updates _ found hfound => exact hfound

/-- A write that succeeds has locked the key of its sender. -/
theorem Locks.step_writes {retries : Nat} {found : Option (Greeting tables)}
    (hlocks : Locks sender.asStr s.committed (.writes retries found) (s.txs i))
    (hanswers : Answers ⟨.statement (recordOp sender found), .ok ()⟩ action)
    (hstep : LockStep s (i, action) s') :
    ∃ tx, s' = s.set i (some tx) ∧ tx.aborted = false ∧ Only sender.asStr tx := by
  have hkey := hlocks.key_recordOp
  cases found with
  | none =>
    cases hanswers with
    | inserts model =>
      cases hstep with
      | inserts _ hopen hnot =>
        rw [hopen] at hlocks
        exact ⟨_, rfl, hnot, hlocks.only.write _⟩
  | some found =>
    cases hanswers with
    | updates model =>
      cases hstep with
      | updates _ hopen hnot =>
        rw [hopen] at hlocks
        have honly := hlocks.only
        rw [← hkey] at honly ⊢
        exact ⟨_, rfl, hnot, honly.write _⟩

/-- A statement that fails leaves a transaction that has locked nothing more. -/
theorem Locks.step_fails (hlocks : Locks sender.asStr s.committed control (s.txs i))
    (hstep : LockStep s (i, .fails) s') :
    ∃ tx, s'.txs i = some tx ∧ s'.committed = s.committed ∧ Only sender.asStr tx := by
  cases hstep with
  | fails holds hopen hholds =>
    rw [hopen] at hlocks
    refine ⟨_, Function.update_self .., rfl, ?_⟩
    intro key hkey
    exact hlocks.only key (hholds key hkey)

/-- The end of a transaction. -/
theorem txs_of_end (haction : action = .lands ∨ action = .commitsNothing ∨ action = .abandons)
    (hstep : LockStep s (i, action) s') : s'.txs i = none := by
  cases hstep with
  | lands | commitsNothing | abandons => exact Function.update_self ..
  | begins | refuses | findsOwn | findsNone | finds | inserts | updates | fails => simp at haction

theorem Locks.step (hlocks : Locks sender.asStr s.committed control (s.txs i))
    (hcontrol : ControlStep uniqueViolation sender control event control')
    (hanswers : Answers event action) (hstep : LockStep s (i, action) s') :
    Locks sender.asStr s'.committed control' (s'.txs i) := by
  cases hcontrol with
  | beginFails retries source =>
    cases hanswers
    cases hstep with
    | refuses hnone =>
      rw [hnone]
      exact .after _ _ retries _
  | begins retries =>
    cases hanswers
    cases hstep with
    | begins hnone =>
      rw [txs_set_self]
      exact .finds retries
  | findFails retries source | writeFails retries found source =>
    have haction := hanswers.fails_eq
    subst haction
    obtain ⟨tx, htx, _, honly⟩ := hlocks.step_fails hstep
    rw [htx]
    exact .rollsBack retries _ honly
  | unreadable retries hrow =>
    rcases hlocks.step_finds hanswers hstep with ⟨rfl, _⟩ | ⟨value, _, _, rfl⟩
    · cases hrow
    · rw [txs_set_self]
      exact .rollsBack retries _ (only_fresh _).lock
  | finds retries hrow =>
    rcases hlocks.step_finds hanswers hstep with ⟨rfl, rfl, htx, _⟩ | ⟨value, rfl, hvalue, rfl⟩
    · cases hrow
      rw [htx]
      exact .inserts retries
    · obtain ⟨greeting, hgreeting, rfl⟩ := rehydrateRow_some hrow
      rw [txs_set_self]
      refine .updates retries greeting (rehydrate_ok hgreeting).1 rfl (only_fresh _).lock ?_
      show s.committed sender.asStr ≠ none
      rw [hvalue]
      exact Option.some_ne_none value
  | writes retries found =>
    obtain ⟨tx, rfl, hnot, honly⟩ := hlocks.step_writes hanswers hstep
    rw [txs_set_self]
    exact .commits retries _ hnot honly
  | commitFails retries greeting source =>
    have hend : s'.txs i = none := by
      cases hanswers with
      | landsUnheard => exact txs_of_end (Or.inl rfl) hstep
      | commitFails => exact txs_of_end (Or.inr (Or.inr rfl)) hstep
    rw [hend]
    exact .after _ _ retries _
  | commits retries greeting =>
    have hend : s'.txs i = none := by
      cases hanswers with
      | lands => exact txs_of_end (Or.inl rfl) hstep
      | commitsNothing => exact txs_of_end (Or.inr (Or.inl rfl)) hstep
    rw [hend]
    exact .ends _
  | rollsBack retries error reply =>
    have hend : s'.txs i = none := by
      cases hanswers
      exact txs_of_end (Or.inr (Or.inr rfl)) hstep
    rw [hend]
    exact .after _ _ retries _

/-- The others keep their transactions. -/
theorem txs_of_others {j : ι} (hstep : LockStep s (i, action) s') (hj : j ≠ i) :
    s'.txs j = s.txs j := by
  cases hstep with
  | refuses | findsOwn | findsNone => rfl
  | begins | finds | inserts | updates | fails | lands | commitsNothing | abandons =>
    exact Function.update_of_ne hj ..

/-- Rows do not go away. -/
theorem committed_of_lockStep {key : String} (hstep : LockStep s (i, action) s')
    (hkey : s.committed key ≠ none) : s'.committed key ≠ none := by
  cases hstep with
  | @lands _ tx =>
    show overlay tx.pending s.committed key ≠ none
    cases hown : tx.pending key with
    | none =>
      rw [overlay_of_none hown]
      exact hkey
    | some value => simp [overlay, hown]
  | begins | refuses | findsOwn | findsNone | finds | inserts | updates | fails | commitsNothing
    | abandons => exact hkey

end Steps

/-- What is left of a call, and its transaction. -/
inductive Locked (tables : UnicodeTables) (uniqueViolation : DbErr → Bool) (input : String)
    (committed : String → Option Int64) :
    Prog (Tx Greetings) (Except GreetError GreetOutput) → Option (LockTx String Int64) → Prop where
  | rejected {error : SenderNameError} : SenderName.new tables input = .error error →
      Locked tables uniqueViolation input committed
        (.pure (.ok (.rejected (.ofSenderNameError error)))) none
  | proceeds {sender : SenderName tables} {control : Control tables}
      {tx : Option (LockTx String Int64)} : SenderName.new tables input = .ok sender →
      Locks sender.asStr committed control tx →
      Locked tables uniqueViolation input committed (control.program uniqueViolation sender) tx

variable [DecidableEq ι]

/-- What is left of every call, and their transactions. -/
def AllLocked (tables : UnicodeTables) (uniqueViolation : DbErr → Bool) (inputs : ι → String)
    (s : SystemState (rowLocks : Store ι String Int64)) : Prop :=
  ∀ i, Locked tables uniqueViolation (inputs i) s.committed (s.programs i) (s.store.txs i)

theorem allLocked_start (tables : UnicodeTables) (uniqueViolation : DbErr → Bool)
    (inputs : ι → String) (table : String → Option Int64) :
    AllLocked tables uniqueViolation inputs
      (.start rowLocks tables uniqueViolation inputs table) := by
  intro i
  show Locked tables uniqueViolation (inputs i) table
    (execute tables uniqueViolation (inputs i)) none
  cases hname : SenderName.new tables (inputs i) with
  | error error =>
    rw [execute, hname]
    exact .rejected hname
  | ok sender =>
    rw [execute_eq _ _ hname]
    exact .proceeds hname (.begins _)

/-- The call that makes a step: where it stands, and where it gets. -/
structure LockMoves (uniqueViolation : DbErr → Bool) (input : String)
    (s : SystemState (rowLocks : Store ι String Int64)) (label : Label ι)
    (s' : SystemState (rowLocks : Store ι String Int64)) (sender : SenderName tables)
    (control control' : Control tables) : Prop where
  named : SenderName.new tables input = .ok sender
  program : s.programs label.process = control.program uniqueViolation sender
  locks : Locks sender.asStr s.committed control (s.store.txs label.process)
  step : ControlStep uniqueViolation sender control label.event control'
  answers : Answers label.event label.action
  store : LockStep s.store (label.process, label.action) s'.store
  programs : s'.programs =
    Function.update s.programs label.process (control'.program uniqueViolation sender)

theorem lockMoves_of_step {s s' : SystemState (rowLocks : Store ι String Int64)} {label : Label ι}
    {input : String} {sender : SenderName tables} {control : Control tables}
    (hname : SenderName.new tables input = .ok sender)
    (hprogram : s.programs label.process = control.program uniqueViolation sender)
    (hlocks : Locks sender.asStr s.committed control (s.store.txs label.process))
    (hstep : SystemStep rowLocks s label s') :
    ∃ control', LockMoves uniqueViolation input s label s' sender control control' := by
  cases hstep with
  | @step state program hcall hanswers hstore =>
    rw [hprogram] at hcall
    obtain ⟨control', hcontrol, rfl⟩ := step_program_iff.mp hcall
    exact ⟨control', hname, hprogram, hlocks, hcontrol, hanswers, hstore, rfl⟩

theorem AllLocked.moves {s s' : SystemState (rowLocks : Store ι String Int64)} {label : Label ι}
    (h : AllLocked tables uniqueViolation inputs s) (hstep : SystemStep rowLocks s label s') :
    ∃ (sender : SenderName tables) (control control' : _),
      LockMoves uniqueViolation (inputs label.process) s label s' sender control control' := by
  have hlabel := h label.process
  generalize hleft : s.programs label.process = left at hlabel
  generalize htx : s.store.txs label.process = tx at hlabel
  cases hlabel with
  | rejected =>
    cases hstep with
    | step hcall =>
      rw [hleft] at hcall
      cases hcall
  | @proceeds sender control tx hname hlocks =>
    rw [← htx] at hlocks
    obtain ⟨control', hmoves⟩ := lockMoves_of_step hname hleft hlocks hstep
    exact ⟨sender, control, control', hmoves⟩

theorem AllLocked.step {s s' : SystemState (rowLocks : Store ι String Int64)} {label : Label ι}
    (h : AllLocked tables uniqueViolation inputs s) (hstep : SystemStep rowLocks s label s') :
    AllLocked tables uniqueViolation inputs s' := by
  obtain ⟨sender, control, control', hmoves⟩ := h.moves hstep
  intro i
  by_cases hi : i = label.process
  · subst hi
    rw [hmoves.programs, Function.update_self]
    exact .proceeds hmoves.named (hmoves.locks.step hmoves.step hmoves.answers hmoves.store)
  · rw [hmoves.programs, Function.update_of_ne hi, txs_of_others hmoves.store hi]
    have hold := h i
    generalize s.programs i = left at hold ⊢
    generalize s.store.txs i = tx at hold ⊢
    cases hold with
    | rejected hname => exact .rejected hname
    | proceeds hname hlocks =>
      exact .proceeds hname (hlocks.mono (committed_of_lockStep hmoves.store))

/-! ## Waiting -/

/-- The next statement of the call is about the key. -/
def Asks (s : SystemState (rowLocks : Store ι String Int64)) (i : ι) (key : String) : Prop :=
  ∃ op next, s.programs i = .call (S := Tx Greetings) (.statement op) next ∧ op.key = key

/-- The other call has locked what the next statement of the call is about. -/
def WaitsFor (s : SystemState (rowLocks : Store ι String Int64)) (i j : ι) : Prop :=
  j ≠ i ∧ ∃ key tx, Asks s i key ∧ s.store.txs j = some tx ∧ tx.holds key = true

/-- A call asks for its own sender only. -/
theorem AllLocked.asks {s : SystemState (rowLocks : Store ι String Int64)} {i : ι} {key : String}
    (h : AllLocked tables uniqueViolation inputs s) (hasks : Asks s i key) : key = inputs i := by
  obtain ⟨op, next, hprogram, rfl⟩ := hasks
  have hi := h i
  rw [hprogram] at hi
  generalize hleft : Prog.call (S := Tx Greetings) (.statement op) next = left at hi
  generalize s.store.txs i = tx at hi
  cases hi with
  | rejected => cases hleft
  | @proceeds sender control tx hname hlocks =>
    rw [← SenderName.asStr_of_new hname]
    cases control with
    | begins retries =>
      rw [program_begins] at hleft
      cases hleft
    | finds retries =>
      rw [program_finds] at hleft
      cases hleft
      rfl
    | writes retries found =>
      rw [program_writes] at hleft
      cases hleft
      exact hlocks.key_recordOp
    | commits retries greeting =>
      rw [program_commits] at hleft
      cases hleft
    | rollsBack retries error =>
      rw [program_rollsBack] at hleft
      cases hleft
    | ends outcome => cases hleft

/-- A call locks its own sender only. -/
theorem AllLocked.holds {s : SystemState (rowLocks : Store ι String Int64)} {i : ι} {key : String}
    {tx : LockTx String Int64} (h : AllLocked tables uniqueViolation inputs s)
    (htx : s.store.txs i = some tx) (hholds : tx.holds key = true) : key = inputs i := by
  have hi := h i
  rw [htx] at hi
  generalize s.programs i = left at hi
  cases hi with
  | proceeds hname hlocks =>
    rw [← SenderName.asStr_of_new hname]
    exact hlocks.only key hholds

/-- No key is locked twice. -/
theorem exclusive_of_run {labels : List (Label ι)}
    {s : SystemState (rowLocks : Store ι String Int64)}
    (hrun : Run rowLocks tables uniqueViolation inputs table labels s) {i j : ι}
    {tx tx' : LockTx String Int64} {key : String} (hi : s.store.txs i = some tx)
    (hj : s.store.txs j = some tx') (hholds : tx.holds key = true)
    (hholds' : tx'.holds key = true) : i = j := by
  obtain ⟨t, _, hsame⟩ := hrun.refines rowLocks_refines
  exact hsame.store.exclusive i j tx tx' key hi hj hholds hholds'

theorem allLocked_of_run {labels : List (Label ι)}
    {s : SystemState (rowLocks : Store ι String Int64)}
    (hrun : Run rowLocks tables uniqueViolation inputs table labels s) :
    AllLocked tables uniqueViolation inputs s :=
  Trace.invariant (fun h hstep => h.step hstep) hrun
    (allLocked_start tables uniqueViolation inputs table)

/-- A call that somebody waits for waits for nobody. -/
theorem not_waitsFor_of_waitsFor {labels : List (Label ι)}
    {s : SystemState (rowLocks : Store ι String Int64)}
    (hrun : Run rowLocks tables uniqueViolation inputs table labels s) {i j : ι}
    (hwaits : WaitsFor s i j) (k : ι) : ¬ WaitsFor s j k := by
  intro hwaits'
  have h := allLocked_of_run hrun
  obtain ⟨_, key, tx, _, htx, hholds⟩ := hwaits
  obtain ⟨hne, key', tx', hasks', htx', hholds'⟩ := hwaits'
  -- Both keys are the sender of the one in the middle, which has locked it itself.
  have hkey := h.holds htx hholds
  have hkey' := h.asks hasks'
  rw [hkey] at hholds
  rw [hkey'] at hholds'
  exact hne (exclusive_of_run hrun htx' htx hholds' hholds)

end QuizArena.Greet
