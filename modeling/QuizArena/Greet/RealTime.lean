import QuizArena.Greet.ReadBack

/-!
# Landings in real time

The order in which calls land is also one in which they could be asked for: a call that
begins after another one has landed lands after it, what has been answered is settled, and
an answer is that of the place the call has in the order. So whoever asks again after an
answer is told of it, and from any point of a run on the counts only grow, by one for each
call that lands. A commit whose answer is lost is assumed to take effect, if it does at all,
before its call is told so; a call cannot land after it has ended.
-/

namespace QuizArena.Greet

open Lib Kernel

variable {ι : Type} [DecidableEq ι] {tables : UnicodeTables} {uniqueViolation : DbErr → Bool}
  {inputs : ι → String} {table : String → Option Int64}

/-- The call makes none of the steps. -/
def Silent (i : ι) (labels : List (Label ι)) : Prop := ∀ label ∈ labels, label.process ≠ i

omit [DecidableEq ι] in
theorem mem_landings_iff {labels : List (Label ι)} {i : ι} :
    i ∈ landings labels ↔ ∃ label ∈ labels, label.process = i ∧ label.action = .lands := by
  unfold landings
  rw [List.mem_filterMap]
  constructor
  · intro h
    obtain ⟨label, hlabel, hsome⟩ := h
    split at hsome
    · rename_i haction
      cases hsome
      exact ⟨label, hlabel, rfl, haction⟩
    · cases hsome
  · intro h
    obtain ⟨label, hlabel, rfl, haction⟩ := h
    exact ⟨label, hlabel, by rw [if_pos haction]⟩

omit [DecidableEq ι] in
theorem Silent.not_mem_landings {i : ι} {labels : List (Label ι)} (h : Silent i labels) :
    i ∉ landings labels := by
  intro hmem
  obtain ⟨label, hlabel, hi, _⟩ := mem_landings_iff.mp hmem
  exact h label hlabel hi

/-- What a point between two parts of a run says of the run. -/
structure RealTime {store : Store ι String Int64} (inputs : ι → String)
    (table : String → Option Int64) (before after : List (Label ι))
    (middle s : SystemState store) : Prop where
  /-- An outcome is final, and whether the call has landed is known by then. -/
  settled : ∀ i outcome, middle.HasOutcome i outcome →
    s.HasOutcome i outcome ∧ Silent i after ∧ (i ∈ landings (before ++ after) ↔ i ∈ landings before)
  /-- A call that begins after another one has landed lands after it. -/
  ordered : ∀ i j, i ∈ landings before → Silent j before → j ∈ landings (before ++ after) →
    ∃ first second third, landings (before ++ after) = first ++ i :: second ++ j :: third
  /-- A call that is answered with a greeting has landed, and is told what its place in the
      order says. -/
  recorded : ∀ i name returning, middle.HasOutcome i (.ok (.recorded name returning)) →
    name = inputs i ∧ ∃ first second, landings before = first ++ i :: second ∧
      (returning = true ↔ table (inputs i) ≠ none ∨ ∃ j ∈ first, inputs j = inputs i)
  /-- Whoever asks after a call of the sender has landed is a returning one. -/
  returns : ∀ i j name returning, i ∈ landings before → Silent j before →
    s.HasOutcome j (.ok (.recorded name returning)) → inputs j = inputs i → returning = true
  /-- The counts only grow, and rows do not go away. -/
  counts : ∀ name, countOf (s.committed name) = min maxCount
    (countOf (middle.committed name) + (landings after).countP fun i => inputs i = name)
  present : ∀ name, middle.committed name ≠ none → s.committed name ≠ none

/-- A call that has ended makes no more steps. -/
theorem AllPlaced.silent {t t' : SystemState (validated : Store ι String Int64)}
    {labels : List (Label ι)} {i : ι} {outcome : Except GreetError GreetOutput}
    (hplaced : AllPlaced tables uniqueViolation inputs t)
    (h : Trace (SystemStep validated) t labels t') (hi : t.HasOutcome i outcome) :
    t'.HasOutcome i outcome ∧ Silent i labels := by
  induction h with
  | nil => exact ⟨hi, fun label hlabel => absurd hlabel List.not_mem_nil⟩
  | @cons _ _ _ label labels hstep _ ih =>
    have hcall := hplaced.step hstep
    obtain ⟨hend, hsilent⟩ := ih hcall.placed (hcall.outcome_stays hi)
    refine ⟨hend, ?_⟩
    intro label' hlabel'
    rcases List.mem_cons.mp hlabel' with rfl | hmem
    · intro heq
      exact hcall.running outcome (heq ▸ hi)
    · exact hsilent label' hmem

/-- Rows do not go away. -/
theorem AllPlaced.present {t t' : SystemState (validated : Store ι String Int64)}
    {labels : List (Label ι)} {name : String}
    (hplaced : AllPlaced tables uniqueViolation inputs t)
    (h : Trace (SystemStep validated) t labels t') (hname : t.committed name ≠ none) :
    t'.committed name ≠ none := by
  induction h with
  | nil => exact hname
  | cons hstep _ ih =>
    have hcall := hplaced.step hstep
    exact ih hcall.placed (hcall.present hname)

/-- Of two calls of which only the first is in the first part of a list, the first comes
    first. -/
theorem split_of_mem {α : Type} {before after : List α} {a b : α} (ha : a ∈ before)
    (hb : b ∉ before) (hmem : b ∈ before ++ after) :
    ∃ first second third, before ++ after = first ++ a :: second ++ b :: third := by
  have hafter : b ∈ after := by
    rcases List.mem_append.mp hmem with h | h
    · exact absurd h hb
    · exact h
  obtain ⟨first, rest, rfl⟩ := List.append_of_mem ha
  obtain ⟨second, third, rfl⟩ := List.append_of_mem hafter
  exact ⟨first, rest ++ second, third, by simp⟩

/-- In a list without repetitions what comes before an entry comes before it. -/
theorem mem_before_of_split {α : Type} {first second third before after : List α} {a b : α}
    (hnodup : (first ++ a :: second ++ b :: third).Nodup)
    (h : first ++ a :: second ++ b :: third = before ++ b :: after) : a ∈ before := by
  rw [List.nodup_append, List.nodup_cons] at hnodup
  obtain ⟨_, ⟨hthird, _⟩, hapart⟩ := hnodup
  have hfront : b ∉ first ++ a :: second := fun hmem => hapart b hmem b List.mem_cons_self rfl
  obtain ⟨rfl, _⟩ := (List.append_cons_inj_of_notMem hfront hthird).mp h
  simp

section Validated

variable {before after : List (Label ι)}
  {t t' : SystemState (validated : Store ι String Int64)}

theorem realTime_of_run (htable : Countable table)
    (hbefore : Run validated tables uniqueViolation inputs table before t)
    (hafter : Trace (SystemStep validated) t after t') :
    RealTime inputs table before after t t' := by
  have hrun : Run validated tables uniqueViolation inputs table (before ++ after) t' :=
    Trace.append_iff.mpr ⟨t, hbefore, hafter⟩
  obtain ⟨hplaced, hlanded⟩ := landed_of_run htable hbefore
  obtain ⟨_, hall⟩ := landed_of_run htable hrun
  have hordered : ∀ i j, i ∈ landings before → Silent j before →
      j ∈ landings (before ++ after) →
      ∃ first second third, landings (before ++ after) = first ++ i :: second ++ j :: third := by
    intro i j hi hj hmem
    rw [landings_append] at hmem ⊢
    exact split_of_mem hi hj.not_mem_landings hmem
  refine ⟨?_, hordered, hlanded.recorded, ?_, ?_, ?_⟩
  · intro i outcome hi
    obtain ⟨hend, hsilent⟩ := hplaced.silent hafter hi
    refine ⟨hend, hsilent, ?_⟩
    rw [landings_append, List.mem_append, or_iff_left hsilent.not_mem_landings]
  · intro i j name returning hi hj houtcome hname
    obtain ⟨_, first, second, hlandings, hreturning⟩ := hall.recorded j name returning houtcome
    have hmem : j ∈ landings (before ++ after) := by
      rw [hlandings]
      simp
    obtain ⟨front, between, rest, hsplit⟩ := hordered i j hi hj hmem
    have honce := hall.once
    rw [hsplit] at honce
    have hfirst := mem_before_of_split honce (hsplit.symm.trans hlandings)
    exact hreturning.mpr (Or.inr ⟨i, hfirst, hname.symm⟩)
  · intro name
    have hnonneg := htable.nonneg name
    rw [hall.counts, hlanded.counts, landings_append, List.countP_append, maxCount]
    omega
  · intro name hname
    exact hplaced.present hafter hname

end Validated

/-- Landings follow the real time of the calls, on either database, as long as no commit takes
    effect after its call was told that it has failed. -/
theorem landings_in_real_time (backend : Backend) (tables : UnicodeTables)
    (uniqueViolation : DbErr → Bool) (inputs : ι → String) (table : String → Option Int64)
    (htable : Countable table) (before after : List (Label ι))
    (middle s : SystemState (storeOf ι backend))
    (hbefore : Run (storeOf ι backend) tables uniqueViolation inputs table before middle)
    (hafter : Trace (SystemStep (storeOf ι backend)) middle after s) :
    RealTime inputs table before after middle s := by
  obtain ⟨R, hrefines⟩ := storeOf_refines ι backend
  obtain ⟨t, hvalidated, hsame⟩ := hbefore.refines hrefines
  obtain ⟨t', hrest, hsame'⟩ := Trace.simulate (SameCalls.step hrefines) hafter hsame
  have h := realTime_of_run htable hvalidated hrest
  have houtcome : ∀ {i outcome}, middle.HasOutcome i outcome → t.HasOutcome i outcome := by
    intro i outcome hi
    rw [SystemState.HasOutcome, hsame.programs]
    exact hi
  have houtcome' : ∀ {i outcome}, s.HasOutcome i outcome ↔ t'.HasOutcome i outcome := by
    intro i outcome
    rw [SystemState.HasOutcome, SystemState.HasOutcome, hsame'.programs]
  refine ⟨?_, h.ordered, ?_, ?_, ?_, ?_⟩
  · intro i outcome hi
    rw [houtcome']
    exact h.settled i outcome (houtcome hi)
  · intro i name returning hi
    exact h.recorded i name returning (houtcome hi)
  · intro i j name returning hi hj hend hname
    exact h.returns i j name returning hi hj (houtcome'.mp hend) hname
  · intro name
    rw [← hsame.committed hrefines, ← hsame'.committed hrefines]
    exact h.counts name
  · intro name
    rw [← hsame.committed hrefines, ← hsame'.committed hrefines]
    exact h.present name

/-- The race, cut where the winner has landed and the loser has not begun to write. -/
theorem landings_in_real_time_race : ∃ middle s : SystemState (storeOf Bool .postgres),
    RealTime (fun _ => "ada") (fun _ => none) (race.take 6) (race.drop 6) middle s := by
  obtain ⟨s, hrun⟩ := race_runs
  rw [← List.take_append_drop 6 race] at hrun
  obtain ⟨middle, hbefore, hafter⟩ := Trace.append_iff.mp hrun
  exact ⟨middle, s, landings_in_real_time .postgres .ascii sqlUnique (fun _ => "ada")
    (fun _ => none) countable_empty (race.take 6) (race.drop 6) middle s hbefore hafter⟩

end QuizArena.Greet
