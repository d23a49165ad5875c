import QuizArena.Greet.Progress

/-!
# What has landed in a run

The invariants of a run over the store that validates at the commit, kept by every step
of every call: how the committed rows follow from the calls that landed and their order,
and what the outcome of a call says about its place in it.
-/

namespace QuizArena.Greet

open Lib Kernel

variable {ι : Type} [DecidableEq ι] {tables : UnicodeTables} {uniqueViolation : DbErr → Bool}
  {inputs : ι → String} {table : String → Option Int64}

/-- What is left of every call, and their transactions. -/
def AllPlaced (tables : UnicodeTables) (uniqueViolation : DbErr → Bool) (inputs : ι → String)
    (t : SystemState (validated : Store ι String Int64)) : Prop :=
  ∀ i, Placed tables uniqueViolation (inputs i) (t.programs i) (t.store.views i)

/-- A call lands: it counts on from the row that is committed, and ends. -/
structure Landing (tables : UnicodeTables) (input : String) (i : ι)
    (t t' : SystemState (validated : Store ι String Int64)) (sender : SenderName tables)
    (found : Option (Greeting tables)) : Prop where
  named : SenderName.new tables input = .ok sender
  reads : rehydrateRow tables (rowOf input (t.committed input)) = .ok found
  committed : t'.committed = Function.update t.committed input (some (nextCount sender found))
  outcome : t'.HasOutcome i (.ok (recorded (nextGreeting sender found))) ∨
    t'.HasOutcome i (.error .internal)

/-- What a step of a call does. -/
structure CallStep (tables : UnicodeTables) (uniqueViolation : DbErr → Bool)
    (inputs : ι → String) (t : SystemState (validated : Store ι String Int64)) (label : Label ι)
    (t' : SystemState (validated : Store ι String Int64)) : Prop where
  placed : AllPlaced tables uniqueViolation inputs t'
  running : ∀ outcome, ¬ t.HasOutcome label.process outcome
  others : ∀ j, j ≠ label.process → t'.programs j = t.programs j
  stays : label.action ≠ .lands → t'.committed = t.committed ∧
    ∀ name returning, ¬ t'.HasOutcome label.process (.ok (.recorded name returning))
  lands : label.action = .lands → ∃ sender found,
    Landing tables (inputs label.process) label.process t t' sender found

/-- The call that makes a step: where it stands, and where it gets. -/
structure Moves (uniqueViolation : DbErr → Bool) (input : String)
    (t : SystemState (validated : Store ι String Int64)) (label : Label ι)
    (t' : SystemState (validated : Store ι String Int64)) (sender : SenderName tables)
    (control control' : Control tables) : Prop where
  named : SenderName.new tables input = .ok sender
  program : t.programs label.process = control.program uniqueViolation sender
  fits : Fits sender control (t.store.views label.process)
  step : ControlStep uniqueViolation sender control label.event control'
  answers : Answers label.event label.action
  store : ValidatedStep t.store (label.process, label.action) t'.store
  programs : t'.programs =
    Function.update t.programs label.process (control'.program uniqueViolation sender)

theorem AllPlaced.moves {t t' : SystemState (validated : Store ι String Int64)} {label : Label ι}
    (hplaced : AllPlaced tables uniqueViolation inputs t)
    (hstep : SystemStep validated t label t') :
    ∃ (sender : SenderName tables) (control control' : _),
      Moves uniqueViolation (inputs label.process) t label t' sender control control' := by
  cases hstep with
  | @step state program hprogram hanswers hstore =>
    have hlabel := hplaced label.process
    generalize hleft : t.programs label.process = left at hlabel hprogram
    generalize hview : t.store.views label.process = view at hlabel
    cases hlabel with
    | rejected => cases hprogram
    | @proceeds sender control view hname hfits =>
      obtain ⟨control', hcontrol, rfl⟩ := step_program_iff.mp hprogram
      rw [← hview] at hfits
      exact ⟨sender, control, control', hname, hleft, hfits, hcontrol, hanswers, hstore, rfl⟩

theorem AllPlaced.step {t t' : SystemState (validated : Store ι String Int64)} {label : Label ι}
    (hplaced : AllPlaced tables uniqueViolation inputs t)
    (hstep : SystemStep validated t label t') :
    CallStep tables uniqueViolation inputs t label t' := by
  obtain ⟨sender, control, control', hmoves⟩ := hplaced.moves hstep
  have hinput := SenderName.asStr_of_new hmoves.named
  have hself : t'.programs label.process = control'.program uniqueViolation sender := by
    rw [hmoves.programs, Function.update_self]
  have hothers : ∀ j, j ≠ label.process → t'.programs j = t.programs j := by
    intro j hj
    rw [hmoves.programs, Function.update_of_ne hj]
  refine ⟨?_, ?_, hothers, ?_, ?_⟩
  · intro j
    by_cases hj : j = label.process
    · subst hj
      rw [hself]
      exact .proceeds hmoves.named (hmoves.fits.step hmoves.step hmoves.answers hmoves.store)
    · rw [hothers j hj, hmoves.store.views_of_ne hj]
      exact hplaced j
  · intro outcome houtcome
    have hends := program_eq_pure (hmoves.program.symm.trans houtcome)
    have hcontrol := hmoves.step
    rw [hends] at hcontrol
    cases hcontrol
  · intro haction
    refine ⟨hmoves.store.committed_of_ne_lands haction, ?_⟩
    intro name returning houtcome
    have hcontrol := hmoves.step
    rw [program_eq_pure (hself.symm.trans houtcome)] at hcontrol
    exact haction (hmoves.fits.recorded_lands hcontrol hmoves.answers hmoves.store)
  · intro haction
    have hanswers := hmoves.answers
    have hstore := hmoves.store
    rw [haction] at hanswers hstore
    obtain ⟨found, hfound, hcommitted, hends⟩ := hmoves.fits.lands hmoves.step hanswers hstore
    rw [hinput] at hfound hcommitted
    refine ⟨sender, found, hmoves.named, hfound, hcommitted, ?_⟩
    rcases hends with rfl | rfl
    · exact Or.inl hself
    · exact Or.inr hself

/-! ## Counts -/

/-- `u32::MAX`. -/
def maxCount : Int := 2 ^ 32 - 1

/-- The count of a row, 0 when there is none. -/
def countOf : Option Int64 → Int
  | none => 0
  | some count => count.toInt

@[simp] theorem countOf_some (count : Int64) : countOf (some count) = count.toInt := rfl

/-- Every row holds a count that a greeting can have. -/
def Countable (table : String → Option Int64) : Prop :=
  ∀ sender count, table sender = some count → 1 ≤ count.toInt ∧ count.toInt ≤ maxCount

theorem Countable.nonneg {table : String → Option Int64} (h : Countable table) (name : String) :
    0 ≤ countOf (table name) := by
  cases hrow : table name with
  | none => exact Int.le_refl 0
  | some count =>
    have hcount := (h name count hrow).1
    simp only [countOf]
    omega

theorem toInt_of_u32TryFrom {n : Int64} {count : UInt32} (h : u32TryFrom n = some count) :
    n.toInt = count.toNat := by
  unfold u32TryFrom at h
  split at h
  · rename_i hrange
    cases h
    have hlt : n.toInt.toNat < UInt32.size := by
      show n.toInt.toNat < 2 ^ 32
      omega
    rw [UInt32.toNat_ofNat_of_lt' hlt]
    omega
  · cases h

/-- A row counts as the greeting that is found for it. -/
theorem countOf_found {input : String} {row : Option Int64} {found : Option (Greeting tables)}
    (h : rehydrateRow tables (rowOf input row) = .ok found) :
    countOf row = found.elim 0 fun greeting => (greeting.timesGreeted.toNat : Int) := by
  cases row with
  | none =>
    cases h
    rfl
  | some count =>
    obtain ⟨greeting, hmodel, rfl⟩ := rehydrateRow_some h
    exact toInt_of_u32TryFrom (rehydrate_ok hmodel).2

/-- A call counts on from the row by one, and no further than a greeting can. -/
theorem toInt_nextCount (sender : SenderName tables) {input : String} {row : Option Int64}
    {found : Option (Greeting tables)} (h : rehydrateRow tables (rowOf input row) = .ok found) :
    (nextCount sender found).toInt = min maxCount (countOf row + 1) := by
  rw [countOf_found h, nextCount, toInt_i64From, maxCount]
  cases found with
  | none => rfl
  | some greeting =>
    show ((saturatingSucc greeting.timesGreeted).toNat : Int) =
      min (2 ^ 32 - 1) ((greeting.timesGreeted.toNat : Int) + 1)
    rw [toNat_saturatingSucc]
    omega

/-- A call reports a returning sender exactly when there was a row. -/
theorem isReturning_nextGreeting {input : String} {row : Option Int64}
    {sender : SenderName tables} {found : Option (Greeting tables)}
    (h : rehydrateRow tables (rowOf input row) = .ok found)
    (hrow : ∀ count, row = some count → 1 ≤ count.toInt) :
    (nextGreeting sender found).isReturning = true ↔ row ≠ none := by
  have hnone := (rehydrateRow_none_iff h).trans rowOf_eq_none
  cases found with
  | none =>
    apply iff_of_false
    · show (Greeting.first sender).isReturning ≠ true
      rw [Greeting.isReturning_first]
      exact Bool.false_ne_true
    · intro hsome
      exact hsome (hnone.mp rfl)
  | some greeting =>
    have hsome : row ≠ none := fun heq => by cases hnone.mpr heq
    apply iff_of_true _ hsome
    apply Greeting.isReturning_recordAnother
    obtain ⟨count, rfl⟩ := Option.ne_none_iff_exists'.mp hsome
    have hcount := hrow count rfl
    have hfound := countOf_found h
    simp only [countOf, Option.elim_some] at hfound
    omega

/-! ## Runs -/

/-- The rows that are committed, and the calls that landed, after a part of a run. -/
structure Landed (inputs : ι → String) (table : String → Option Int64) (labels : List (Label ι))
    (t : SystemState (validated : Store ι String Int64)) : Prop where
  once : (landings labels).Nodup
  ended : ∀ i ∈ landings labels, t.HasOutcome i (.error .internal) ∨
    ∃ name returning, t.HasOutcome i (.ok (.recorded name returning))
  counts : ∀ name, countOf (t.committed name) =
    min maxCount (countOf (table name) + (landings labels).countP fun i => inputs i = name)
  countable : Countable t.committed
  recorded : ∀ i name returning, t.HasOutcome i (.ok (.recorded name returning)) →
    name = inputs i ∧ ∃ before after, landings labels = before ++ i :: after ∧
      (returning = true ↔ table (inputs i) ≠ none ∨ ∃ j ∈ before, inputs j = inputs i)

/-- The count of a row says whether it is there. -/
theorem ne_none_iff_countOf {table : String → Option Int64} (h : Countable table) (name : String) :
    table name ≠ none ↔ 1 ≤ countOf (table name) := by
  cases hrow : table name with
  | none => simp [countOf]
  | some count =>
    have hcount := (h name count hrow).1
    simp [countOf, hcount]

/-- A row is committed when it was there at the start or a call of its sender landed. -/
theorem Landed.present_iff {labels : List (Label ι)}
    {t : SystemState (validated : Store ι String Int64)} (htable : Countable table)
    (h : Landed inputs table labels t) (name : String) :
    t.committed name ≠ none ↔ table name ≠ none ∨ ∃ i ∈ landings labels, inputs i = name := by
  have hpos : (∃ i ∈ landings labels, inputs i = name) ↔
      1 ≤ (landings labels).countP fun i => inputs i = name := by
    have hiff := List.countP_pos_iff (p := fun i => decide (inputs i = name)) (l := landings labels)
    simp only [decide_eq_true_eq] at hiff
    exact hiff.symm
  rw [ne_none_iff_countOf h.countable, ne_none_iff_countOf htable, hpos, h.counts, maxCount]
  have hnonneg := htable.nonneg name
  omega

theorem Landed.start (htable : Countable table) :
    Landed inputs table [] (.start validated tables uniqueViolation inputs table) where
  once := List.nodup_nil
  ended i hi := by cases hi
  counts name := by
    show countOf (table name) = min maxCount (countOf (table name) + 0)
    cases hrow : table name with
    | none => rfl
    | some count =>
      have hcount := (htable name count hrow).2
      simp only [countOf]
      omega
  countable := htable
  recorded i name returning h := by
    exfalso
    have hexecute : execute tables uniqueViolation (inputs i) =
        .pure (.ok (.recorded name returning)) := h
    cases hname : SenderName.new tables (inputs i) with
    | error error =>
      rw [execute, hname] at hexecute
      cases hexecute
    | ok sender =>
      rw [execute_eq _ _ hname] at hexecute
      cases program_eq_pure hexecute

/-- An outcome is final. -/
theorem CallStep.outcome_stays {t t' : SystemState (validated : Store ι String Int64)}
    {label : Label ι} (h : CallStep tables uniqueViolation inputs t label t') {i : ι}
    {outcome : Except GreetError GreetOutput} (hi : t.HasOutcome i outcome) :
    t'.HasOutcome i outcome := by
  have hne : i ≠ label.process := fun heq => h.running outcome (heq ▸ hi)
  exact (h.others i hne).trans hi

/-- A call that still runs has not landed. -/
theorem Landed.fresh {labels : List (Label ι)} {label : Label ι}
    {t t' : SystemState (validated : Store ι String Int64)} (h : Landed inputs table labels t)
    (hstep : CallStep tables uniqueViolation inputs t label t') :
    label.process ∉ landings labels := by
  intro hmem
  rcases h.ended _ hmem with hinternal | ⟨name, returning, hrecorded⟩
  · exact hstep.running _ hinternal
  · exact hstep.running _ hrecorded

theorem Landed.stays {labels : List (Label ι)} {label : Label ι}
    {t t' : SystemState (validated : Store ι String Int64)} (h : Landed inputs table labels t)
    (hstep : CallStep tables uniqueViolation inputs t label t') (haction : label.action ≠ .lands) :
    Landed inputs table (labels ++ [label]) t' := by
  obtain ⟨hcommitted, houtcome⟩ := hstep.stays haction
  have hlandings := landings_snoc_of_ne labels haction
  refine ⟨?_, ?_, ?_, ?_, ?_⟩
  · rw [hlandings]
    exact h.once
  · intro i hi
    rw [hlandings] at hi
    rcases h.ended i hi with hinternal | ⟨name, returning, hrecorded⟩
    · exact Or.inl (hstep.outcome_stays hinternal)
    · exact Or.inr ⟨name, returning, hstep.outcome_stays hrecorded⟩
  · intro name
    rw [hcommitted, hlandings]
    exact h.counts name
  · rw [hcommitted]
    exact h.countable
  · intro i name returning hi
    have hne : i ≠ label.process := fun heq => houtcome name returning (heq ▸ hi)
    rw [hlandings]
    exact h.recorded i name returning ((hstep.others i hne).symm.trans hi)

theorem Landed.lands {labels : List (Label ι)} {label : Label ι}
    {t t' : SystemState (validated : Store ι String Int64)} {sender : SenderName tables}
    {found : Option (Greeting tables)} (htable : Countable table)
    (h : Landed inputs table labels t) (hstep : CallStep tables uniqueViolation inputs t label t')
    (haction : label.action = .lands)
    (hlanding : Landing tables (inputs label.process) label.process t t' sender found) :
    Landed inputs table (labels ++ [label]) t' := by
  have hlandings := landings_snoc_of_lands labels haction
  have hfresh := h.fresh hstep
  have hreads := hlanding.reads
  have hcount := toInt_nextCount sender hreads
  refine ⟨?_, ?_, ?_, ?_, ?_⟩
  · rw [hlandings, List.nodup_append]
    refine ⟨h.once, List.pairwise_singleton _ _, ?_⟩
    intro i hi j hj heq
    rw [List.mem_singleton.mp hj] at heq
    exact hfresh (heq ▸ hi)
  · intro i hi
    rw [hlandings] at hi
    rcases List.mem_append.mp hi with hi | hi
    · rcases h.ended i hi with hinternal | ⟨name, returning, hrecorded⟩
      · exact Or.inl (hstep.outcome_stays hinternal)
      · exact Or.inr ⟨name, returning, hstep.outcome_stays hrecorded⟩
    · rw [List.mem_singleton.mp hi]
      rcases hlanding.outcome with hrecorded | hinternal
      · exact Or.inr ⟨_, _, hrecorded⟩
      · exact Or.inl hinternal
  · intro name
    have hbefore := h.counts name
    rw [hlanding.committed, hlandings, List.countP_append]
    by_cases hname : name = inputs label.process
    · subst hname
      rw [Function.update_self, countOf_some, hcount, hbefore]
      simp only [List.countP_singleton, decide_true, if_true]
      omega
    · rw [Function.update_of_ne hname, hbefore]
      have hother : ¬ inputs label.process = name := fun heq => hname heq.symm
      simp [hother]
  · intro name count hrow
    rw [hlanding.committed] at hrow
    by_cases hname : name = inputs label.process
    · subst hname
      rw [Function.update_self] at hrow
      cases hrow
      have hnonneg := h.countable.nonneg (inputs label.process)
      rw [hcount, maxCount]
      omega
    · rw [Function.update_of_ne hname] at hrow
      exact h.countable name count hrow
  · intro i name returning hi
    rw [hlandings]
    by_cases hne : i = label.process
    · subst hne
      rcases hlanding.outcome with hrecorded | hinternal
      · have heq := hi.symm.trans hrecorded
        cases heq
        refine ⟨?_, landings labels, [], rfl, ?_⟩
        · rw [← SenderName.asStr_of_new hlanding.named] at hreads ⊢
          rw [sender_nextGreeting hreads]
        · rw [← h.present_iff htable]
          exact isReturning_nextGreeting hreads fun count hrow => (h.countable _ count hrow).1
      · cases hi.symm.trans hinternal
    · obtain ⟨heq, before, after, hlist, hreturning⟩ :=
        h.recorded i name returning ((hstep.others i hne).symm.trans hi)
      refine ⟨heq, before, after ++ [label.process], ?_, hreturning⟩
      rw [hlist, List.append_assoc, List.cons_append]

/-- What has landed after any run. -/
theorem landed_of_run {labels : List (Label ι)}
    {t : SystemState (validated : Store ι String Int64)} (htable : Countable table)
    (hrun : Run validated tables uniqueViolation inputs table labels t) :
    AllPlaced tables uniqueViolation inputs t ∧ Landed inputs table labels t := by
  have hstart : AllPlaced tables uniqueViolation inputs
      (.start validated tables uniqueViolation inputs table) := fun i =>
    placed_execute tables uniqueViolation (inputs i)
  refine Trace.history (I := fun labels t => AllPlaced tables uniqueViolation inputs t ∧
    Landed inputs table labels t) ?_ [] hrun ⟨hstart, .start htable⟩
  intro labels t label t' h hstep
  have hcall := h.1.step hstep
  refine ⟨hcall.placed, ?_⟩
  by_cases haction : label.action = .lands
  · obtain ⟨sender, found, hlanding⟩ := hcall.lands haction
    exact h.2.lands htable hcall haction hlanding
  · exact h.2.stays hcall haction

end QuizArena.Greet
