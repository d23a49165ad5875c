import QuizArena.Greet.Landings

/-!
# Concurrent greetings are linearizable

Whatever the interleaving, the calls that land do to the table what they would do one
after another in the order of their commits, on a store that serves one transaction at a
time, and report what they would report there. What that means for the counts and for the
outcomes is spelled out beside it.
-/

namespace QuizArena.Greet

open Lib Kernel

variable {ι : Type} [DecidableEq ι] {tables : UnicodeTables} {uniqueViolation : DbErr → Bool}
  {inputs : ι → String} {table : String → Option Int64}

/-- What a run of concurrent calls does. -/
structure Linearizable (store : Store ι String Int64) (tables : UnicodeTables)
    (uniqueViolation : DbErr → Bool) (inputs : ι → String) (table : String → Option Int64)
    (labels : List (Label ι)) (s : SystemState store) : Prop where
  /-- The calls that landed, one after another in the same order. -/
  serial : ∃ labels' s', Run serial tables uniqueViolation inputs table labels' s' ∧
    landings labels' = landings labels ∧ s'.committed = s.committed ∧
    ∀ i name returning, s.HasOutcome i (.ok (.recorded name returning)) →
      s'.HasOutcome i (.ok (.recorded name returning))
  once : (landings labels).Nodup
  counts : ∀ name, countOf (s.committed name) =
    min maxCount (countOf (table name) + (landings labels).countP fun i => inputs i = name)
  recorded : ∀ i name returning, s.HasOutcome i (.ok (.recorded name returning)) →
    name = inputs i ∧ ∃ before after, landings labels = before ++ i :: after ∧
      (returning = true ↔ table (inputs i) ≠ none ∨ ∃ j ∈ before, inputs j = inputs i)
  firstTime : ∀ name, table name = none → (∃ i ∈ landings labels, inputs i = name) →
    ∃ i ∈ landings labels, inputs i = name ∧ ∀ j name' returning,
      s.HasOutcome j (.ok (.recorded name' returning)) → inputs j = name →
      (returning = false ↔ j = i)
  unchanged : ∀ i, (∃ rejection, s.HasOutcome i (.ok (.rejected rejection))) ∨
    s.HasOutcome i (.error .conflict) → i ∉ landings labels
  ownRow : ∀ before label after s₁ s₂, labels = before ++ label :: after →
    Run store tables uniqueViolation inputs table before s₁ → SystemStep store s₁ label s₂ →
    ∀ name, s₂.committed name ≠ s₁.committed name →
      label.action = .lands ∧ inputs label.process = name

/-! ## A call alone -/

/-- A step of a call that runs alone. -/
theorem serial_step (uniqueViolation : DbErr → Bool)
    (sender : SenderName tables)
    (programs : ι → Prog (Tx Greetings) (Except GreetError GreetOutput)) {i : ι}
    {control control' : Control tables}
    {event : Event (Tx Greetings)} {action : Action String Int64}
    {store store' : Serial ι String Int64}
    (hcontrol : ControlStep uniqueViolation sender control event control')
    (hanswers : Answers event action) (hstore : SerialStep store (i, action) store') :
    SystemStep serial
      ⟨Function.update programs i (control.program uniqueViolation sender), store⟩
      ⟨i, event, action⟩
      ⟨Function.update programs i (control'.program uniqueViolation sender), store'⟩ := by
  have hstep : Prog.Step (Function.update programs i (control.program uniqueViolation sender) i)
      event (control'.program uniqueViolation sender) := by
    rw [Function.update_self]
    exact step_program_iff.mpr ⟨control', hcontrol, rfl⟩
  have hsystem := @SystemStep.step ι _ serial
    ⟨Function.update programs i (control.program uniqueViolation sender), store⟩
    ⟨i, event, action⟩ store' _ hstep hanswers hstore
  rw [Function.update_idem] at hsystem
  exact hsystem

/-- The statement that records a greeting, on a store that has the row it was found for. -/
theorem serial_records {κ : Type} {sender : SenderName tables}
    {found : Option (Greeting tables)} {working : String → Option Int64} (i : κ)
    (rows : String → Option Int64)
    (hreads : rehydrateRow tables (rowOf sender.asStr (working sender.asStr)) = .ok found) :
    ∃ action, Answers ⟨.statement (recordOp sender found), .ok ()⟩ action ∧ action ≠ .lands ∧
      SerialStep ⟨rows, some (i, working)⟩ (i, action)
        ⟨rows, some (i, Function.update working sender.asStr (some (nextCount sender found)))⟩ := by
  have hnone := (rehydrateRow_none_iff hreads).trans rowOf_eq_none
  have hmodel := toModel_nextGreeting hreads
  unfold recordOp
  rw [hmodel]
  cases found with
  | none =>
    refine ⟨_, .inserts _, by simp, ?_⟩
    exact .inserts rows i _ (hnone.mp rfl)
  | some greeting =>
    refine ⟨_, .updates _, by simp, ?_⟩
    apply SerialStep.updates rows i
    intro hrow
    cases hnone.mpr hrow

/-- A call that runs alone lands, with the greeting that counts on from its row. -/
theorem serial_lands {programs : ι → Prog (Tx Greetings) (Except GreetError GreetOutput)} {i : ι}
    {sender : SenderName tables} {found : Option (Greeting tables)}
    {rows : String → Option Int64} (hname : SenderName.new tables (inputs i) = .ok sender)
    (hprogram : programs i = execute tables uniqueViolation (inputs i))
    (hreads : rehydrateRow tables (rowOf (inputs i) (rows (inputs i))) = .ok found) :
    ∃ labels, landings labels = [i] ∧
      Trace (SystemStep (serial : Store ι String Int64)) ⟨programs, ⟨rows, none⟩⟩ labels
        ⟨Function.update programs i (.pure (.ok (recorded (nextGreeting sender found)))),
          ⟨Function.update rows (inputs i) (some (nextCount sender found)), none⟩⟩ := by
  rw [← SenderName.asStr_of_new hname] at hreads ⊢
  rw [execute_eq uniqueViolation sender hname] at hprogram
  obtain ⟨action, hanswers, haction, hrecord⟩ := serial_records i rows hreads
  have hbegin := serial_step uniqueViolation sender programs (.begins (maxAttempts - 1)) .begins
    (SerialStep.begins rows i)
  have hfind := serial_step uniqueViolation sender programs (.finds (maxAttempts - 1) hreads)
    (.finds sender.asStr (rows sender.asStr)) (SerialStep.finds rows rows i sender.asStr)
  have hwrite := serial_step uniqueViolation sender programs (.writes (maxAttempts - 1) found)
    hanswers hrecord
  have hcommit := serial_step uniqueViolation sender programs
    (.commits (maxAttempts - 1) (nextGreeting sender found)) .lands
    (SerialStep.lands rows (Function.update rows sender.asStr (some (nextCount sender found))) i)
  have htrace := Trace.cons hbegin (.cons hfind (.cons hwrite (.cons hcommit (.nil _))))
  rw [← hprogram, Function.update_eq_self] at htrace
  refine ⟨_, ?_, htrace⟩
  simp [landings, haction]

/-! ## Calls that run concurrently -/

/-- The calls that landed have a run one after another, with the same rows and the same
    reports, and the others have not begun in it. -/
def Serializable (tables : UnicodeTables) (uniqueViolation : DbErr → Bool) (inputs : ι → String)
    (table : String → Option Int64) (labels : List (Label ι))
    (t : SystemState (validated : Store ι String Int64)) : Prop :=
  ∃ labels' s', Run serial tables uniqueViolation inputs table labels' s' ∧
    landings labels' = landings labels ∧ s'.store = ⟨t.committed, none⟩ ∧
    (∀ i, i ∉ landings labels → s'.programs i = execute tables uniqueViolation (inputs i)) ∧
    ∀ i name returning, t.HasOutcome i (.ok (.recorded name returning)) →
      s'.HasOutcome i (.ok (.recorded name returning))

theorem Serializable.stays {labels : List (Label ι)} {label : Label ι}
    {t t' : SystemState (validated : Store ι String Int64)}
    (h : Serializable tables uniqueViolation inputs table labels t)
    (hstep : CallStep tables uniqueViolation inputs t label t') (haction : label.action ≠ .lands) :
    Serializable tables uniqueViolation inputs table (labels ++ [label]) t' := by
  obtain ⟨labels', s', hrun, hlandings, hstore, hothers, hrecorded⟩ := h
  obtain ⟨hcommitted, houtcome⟩ := hstep.stays haction
  have hsame := landings_snoc_of_ne labels haction
  rw [Serializable, hsame, hcommitted]
  refine ⟨labels', s', hrun, hlandings, hstore, hothers, ?_⟩
  intro i name returning hi
  have hne : i ≠ label.process := fun heq => houtcome name returning (heq ▸ hi)
  exact hrecorded i name returning ((hstep.others i hne).symm.trans hi)

theorem Serializable.lands {labels : List (Label ι)} {label : Label ι}
    {t t' : SystemState (validated : Store ι String Int64)} {sender : SenderName tables}
    {found : Option (Greeting tables)}
    (h : Serializable tables uniqueViolation inputs table labels t)
    (hstep : CallStep tables uniqueViolation inputs t label t') (haction : label.action = .lands)
    (hfresh : label.process ∉ landings labels)
    (hlanding : Landing tables (inputs label.process) label.process t t' sender found) :
    Serializable tables uniqueViolation inputs table (labels ++ [label]) t' := by
  obtain ⟨labels', s', hrun, hlandings, hstore, hothers, hrecorded⟩ := h
  obtain ⟨programs, store⟩ := s'
  simp only at hstore
  subst hstore
  obtain ⟨alone, halone, htrace⟩ := serial_lands hlanding.named (hothers _ hfresh) hlanding.reads
  have hnew := landings_snoc_of_lands labels haction
  rw [Serializable, hnew, hlanding.committed]
  refine ⟨labels' ++ alone, _, Trace.append_iff.mpr ⟨_, hrun, htrace⟩, ?_, rfl, ?_, ?_⟩
  · rw [landings_append, hlandings, halone]
  · intro i hi
    rw [List.mem_append, List.mem_singleton, not_or] at hi
    show Function.update programs label.process _ i = _
    rw [Function.update_of_ne hi.2]
    exact hothers i hi.1
  · intro i name returning hi
    show Function.update programs label.process _ i = _
    by_cases hne : i = label.process
    · subst hne
      rw [Function.update_self]
      rcases hlanding.outcome with houtcome | houtcome
      · exact houtcome.symm.trans hi
      · cases houtcome.symm.trans hi
    · rw [Function.update_of_ne hne]
      exact hrecorded i name returning ((hstep.others i hne).symm.trans hi)

theorem serializable_of_run {labels : List (Label ι)}
    {t : SystemState (validated : Store ι String Int64)} (htable : Countable table)
    (hrun : Run validated tables uniqueViolation inputs table labels t) :
    Serializable tables uniqueViolation inputs table labels t := by
  have hstart : Serializable tables uniqueViolation inputs table []
      (.start validated tables uniqueViolation inputs table) :=
    ⟨[], _, .nil _, rfl, rfl, fun _ _ => rfl, fun _ _ _ h => h⟩
  have hhistory : Run validated tables uniqueViolation inputs table ([] ++ labels) t ∧
      Serializable tables uniqueViolation inputs table ([] ++ labels) t := by
    refine Trace.history (I := fun labels t =>
      Run validated tables uniqueViolation inputs table labels t ∧
        Serializable tables uniqueViolation inputs table labels t) ?_ [] hrun ⟨.nil _, hstart⟩
    intro labels t label t' h hstep
    refine ⟨Trace.append_iff.mpr ⟨t, h.1, .cons hstep (.nil t')⟩, ?_⟩
    obtain ⟨hplaced, hlanded⟩ := landed_of_run htable h.1
    have hcall := hplaced.step hstep
    by_cases haction : label.action = .lands
    · obtain ⟨sender, found, hlanding⟩ := hcall.lands haction
      exact h.2.lands hcall haction (hlanded.fresh hcall) hlanding
    · exact h.2.stays hcall haction
  exact hhistory.2

/-- Of two places in a list either is the other or comes before it. -/
theorem eq_or_mem_of_append_cons {α : Type} {before after before' after' : List α} {a b : α}
    (h : before ++ a :: after = before' ++ b :: after') (hb : b ∉ before) :
    b = a ∧ before' = before ∨ a ∈ before' := by
  rcases List.append_eq_append_iff.mp h with ⟨middle, hbefore, htail⟩ | ⟨middle, hbefore, htail⟩
  · cases middle with
    | nil =>
      rw [List.nil_append, List.cons.injEq] at htail
      rw [List.append_nil] at hbefore
      exact Or.inl ⟨htail.1.symm, hbefore⟩
    | cons c middle =>
      rw [List.cons_append, List.cons.injEq] at htail
      right
      rw [hbefore, htail.1]
      exact List.mem_append_right _ List.mem_cons_self
  · cases middle with
    | nil =>
      rw [List.nil_append, List.cons.injEq] at htail
      rw [List.append_nil] at hbefore
      exact Or.inl ⟨htail.1, hbefore.symm⟩
    | cons c middle =>
      exfalso
      rw [List.cons_append, List.cons.injEq] at htail
      apply hb
      rw [hbefore, htail.1]
      exact List.mem_append_right _ List.mem_cons_self

/-- Of the calls of a sender that was absent only the first to land is a first one. -/
theorem Landed.firstTime {labels : List (Label ι)}
    {t : SystemState (validated : Store ι String Int64)} (h : Landed inputs table labels t)
    {name : String} (habsent : table name = none)
    (hlanded : ∃ i ∈ landings labels, inputs i = name) :
    ∃ i ∈ landings labels, inputs i = name ∧ ∀ j name' returning,
      t.HasOutcome j (.ok (.recorded name' returning)) → inputs j = name →
      (returning = false ↔ j = i) := by
  obtain ⟨i, hi, hname⟩ := hlanded
  have hmem : name ∈ (landings labels).map inputs := hname ▸ List.mem_map_of_mem hi
  obtain ⟨names, names', hnames, hfirst⟩ := List.eq_append_cons_of_mem hmem
  obtain ⟨before, rest, hsplit, rfl, hrest⟩ := List.map_eq_append_iff.mp hnames
  obtain ⟨first, after, rfl, hfirstName, _⟩ := List.map_eq_cons_iff.mp hrest
  refine ⟨first, ?_, hfirstName, ?_⟩
  · rw [hsplit]
    exact List.mem_append_right _ List.mem_cons_self
  · intro j name' returning houtcome hj
    obtain ⟨_, before', after', hsplit', hreturning⟩ := h.recorded j name' returning houtcome
    rw [hj] at hreturning
    have hnot : j ∉ before := fun hmem => hfirst (hj ▸ List.mem_map_of_mem hmem)
    rcases eq_or_mem_of_append_cons (hsplit.symm.trans hsplit') hnot with ⟨heq, hbefore⟩ | hearlier
    · apply iff_of_true _ heq
      rw [← Bool.not_eq_true, hreturning, hbefore]
      intro hsome
      rcases hsome with hsome | ⟨k, hk, hkname⟩
      · exact hsome habsent
      · exact hfirst (hkname ▸ List.mem_map_of_mem hk)
    · apply iff_of_false
      · rw [← Bool.not_eq_true, not_not, hreturning]
        exact Or.inr ⟨first, hearlier, hfirstName⟩
      · intro heq
        have honce := h.once
        rw [hsplit', List.nodup_append] at honce
        exact honce.2.2 first hearlier j List.mem_cons_self heq.symm

/-- Concurrent calls are linearizable, on either database. -/
theorem execute_linearizable (backend : Backend) (tables : UnicodeTables)
    (uniqueViolation : DbErr → Bool) (inputs : ι → String) (table : String → Option Int64)
    (htable : Countable table) (labels : List (Label ι)) (s : SystemState (storeOf ι backend))
    (hrun : Run (storeOf ι backend) tables uniqueViolation inputs table labels s) :
    Linearizable (storeOf ι backend) tables uniqueViolation inputs table labels s := by
  obtain ⟨R, hrefines⟩ := storeOf_refines ι backend
  obtain ⟨t, hvalidated, hsame⟩ := hrun.refines hrefines
  obtain ⟨_, hlanded⟩ := landed_of_run htable hvalidated
  obtain ⟨labels', s', hserial, hlandings, hstore, _, hreports⟩ :=
    serializable_of_run htable hvalidated
  have hcommitted := hsame.committed hrefines
  have houtcome : ∀ {i outcome}, s.HasOutcome i outcome → t.HasOutcome i outcome := by
    intro i outcome hi
    rw [SystemState.HasOutcome, hsame.programs]
    exact hi
  refine ⟨?_, hlanded.once, ?_, ?_, ?_, ?_, ?_⟩
  · refine ⟨labels', s', hserial, hlandings, ?_, ?_⟩
    · show s'.store.committed = s.committed
      rw [hstore, ← hcommitted]
    · intro i name returning hi
      exact hreports i name returning (houtcome hi)
  · intro name
    rw [← hcommitted]
    exact hlanded.counts name
  · intro i name returning hi
    exact hlanded.recorded i name returning (houtcome hi)
  · intro name habsent hsome
    obtain ⟨i, hi, hname, hfirst⟩ := hlanded.firstTime habsent hsome
    exact ⟨i, hi, hname, fun j name' returning hj => hfirst j name' returning (houtcome hj)⟩
  · intro i hi hmem
    rcases hlanded.ended i hmem with hended | ⟨name, returning, hended⟩
    · rcases hi with ⟨rejection, hi⟩ | hi
      · cases hended.symm.trans (houtcome hi)
      · cases hended.symm.trans (houtcome hi)
    · rcases hi with ⟨rejection, hi⟩ | hi
      · cases hended.symm.trans (houtcome hi)
      · cases hended.symm.trans (houtcome hi)
  · intro before label after s₁ s₂ _ hbefore hstep name hname
    obtain ⟨t₁, hvalidated₁, hsame₁⟩ := hbefore.refines hrefines
    obtain ⟨t₂, hstep₂, hsame₂⟩ := hsame₁.step hrefines hstep
    rw [← hsame₁.committed hrefines, ← hsame₂.committed hrefines] at hname
    have hcall := (landed_of_run htable hvalidated₁).1.step hstep₂
    by_cases haction : label.action = .lands
    · refine ⟨haction, ?_⟩
      by_contra hne
      obtain ⟨sender, found, hlanding⟩ := hcall.lands haction
      rw [hlanding.committed, Function.update_of_ne (Ne.symm hne)] at hname
      exact hname rfl
    · rw [(hcall.stays haction).1] at hname
      exact absurd rfl hname

/-- Two calls of one sender race to insert its row, and the one that loses comes back. -/
def race : List (Label Bool) :=
  [⟨false, ⟨.begin, .ok ()⟩, .begins⟩,
    ⟨false, ⟨.statement (.find "ada"), .ok none⟩, .finds "ada" none⟩,
    ⟨true, ⟨.begin, .ok ()⟩, .begins⟩,
    ⟨true, ⟨.statement (.find "ada"), .ok none⟩, .finds "ada" none⟩,
    ⟨true, ⟨.statement (.write .insert ⟨"ada", 1⟩), .ok ()⟩, .inserts "ada" 1⟩,
    ⟨true, ⟨.commit, .ok ()⟩, .lands⟩,
    ⟨false, ⟨.statement (.write .insert ⟨"ada", 1⟩),
      .error (.query (.sqlxError (.database (.postgres "23505"))))⟩, .fails⟩,
    ⟨false, ⟨.rollback, .ok ()⟩, .abandons⟩,
    ⟨false, ⟨.begin, .ok ()⟩, .begins⟩,
    ⟨false, ⟨.statement (.find "ada"), .ok (some ⟨"ada", 1⟩)⟩, .finds "ada" (some 1)⟩,
    ⟨false, ⟨.statement (.write .update ⟨"ada", 2⟩), .ok ()⟩, .updates "ada" 2⟩,
    ⟨false, ⟨.commit, .ok ()⟩, .lands⟩]

theorem race_runs : ∃ s, Run (storeOf Bool .postgres) .ascii sqlUnique (fun _ => "ada")
    (fun _ => none) race s := by
  have hother : ∀ {s : LockState Bool String Int64} {key : String} (i : Bool),
      (∀ tx, s.txs (!i) = some tx → tx.holds key = false) → s.Free i key := by
    intro s key i h j tx hj htx
    have hnot : j = !i := by
      cases i <;> cases j <;> simp at hj ⊢
    exact h tx (hnot ▸ htx)
  apply Exists.intro
  apply Trace.cons
  · exact .step (.call (S := Tx Greetings) .begin _ (.ok ())) .begins (LockStep.begins rfl)
  apply Trace.cons
  · exact .step (.call (S := Tx Greetings) (.statement (.find "ada")) _ (.ok none))
      (.finds "ada" none) (LockStep.findsNone rfl rfl rfl rfl)
  apply Trace.cons
  · exact .step (.call (S := Tx Greetings) .begin _ (.ok ())) .begins (LockStep.begins rfl)
  apply Trace.cons
  · exact .step (.call (S := Tx Greetings) (.statement (.find "ada")) _ (.ok none))
      (.finds "ada" none) (LockStep.findsNone rfl rfl rfl rfl)
  apply Trace.cons
  · exact .step (.call (S := Tx Greetings) (.statement (.write .insert ⟨"ada", 1⟩)) _ (.ok ()))
      (.inserts ⟨"ada", 1⟩) (LockStep.inserts 1 rfl rfl rfl rfl (hother true fun _ h => by
        cases h
        rfl))
  apply Trace.cons
  · exact .step (.call (S := Tx Greetings) .commit _ (.ok ())) .lands (LockStep.lands rfl rfl)
  apply Trace.cons
  · exact .step (.call (S := Tx Greetings) (.statement (.write .insert ⟨"ada", 1⟩)) _
      (.error (.query (.sqlxError (.database (.postgres "23505")))))) (.fails _ _)
      (LockStep.fails (fun _ => false) rfl (by intro key h; cases h))
  apply Trace.cons
  · exact .step (.call (S := Tx Greetings) .rollback _ (.ok ())) (.rollsBack _)
      (LockStep.abandons rfl)
  apply Trace.cons
  · exact .step (.call (S := Tx Greetings) .begin _ (.ok ())) .begins (LockStep.begins rfl)
  apply Trace.cons
  · exact .step (.call (S := Tx Greetings) (.statement (.find "ada")) _ (.ok (some ⟨"ada", 1⟩)))
      (.finds "ada" (some 1)) (LockStep.finds 1 rfl rfl rfl rfl (hother false fun _ h => by
        cases h))
  apply Trace.cons
  · exact .step (.call (S := Tx Greetings) (.statement (.write .update ⟨"ada", 2⟩)) _ (.ok ()))
      (.updates ⟨"ada", 2⟩) (LockStep.updates 2 rfl rfl (Option.some_ne_none (1 : Int64))
        (hother false fun _ h => by cases h))
  apply Trace.cons
  · exact .step (.call (S := Tx Greetings) .commit _ (.ok ())) .lands (LockStep.lands rfl rfl)
  exact .nil _

theorem execute_linearizable_race : ∃ s, Linearizable (storeOf Bool .postgres) .ascii sqlUnique
    (fun _ => "ada") (fun _ => none) race s := by
  obtain ⟨s, hrun⟩ := race_runs
  refine ⟨s, execute_linearizable .postgres .ascii sqlUnique (fun _ => "ada") (fun _ => none) ?_
    race s hrun⟩
  intro sender count h
  cases h

end QuizArena.Greet
