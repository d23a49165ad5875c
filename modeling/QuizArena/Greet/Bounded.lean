import QuizArena.Greet.Linearizable
import QuizArena.Kernel.Landing
import Mathlib.Algebra.BigOperators.Group.Finset.Piecewise
import Mathlib.Algebra.Order.BigOperators.Group.Finset

/-!
# Calls are bounded and leave nothing open

A call makes at most so many calls to the driver, whatever it is answered and whoever runs
beside it, so a run of finitely many calls is finite. Every transaction it begins it also
settles, by one commit or one rollback, before it begins another one or answers.
-/

namespace QuizArena.Greet

open Lib Kernel

variable {ι : Type} [DecidableEq ι] {tables : UnicodeTables} {uniqueViolation : DbErr → Bool}
  {inputs : ι → String} {table : String → Option Int64} {cost : (Tx Greetings).Op → Nat}

/-! ## The cost of a call -/

/-- What the operations of an attempt cost at most: the begin, the lookup, the write, and
    the commit or the rollback. -/
structure Rates (cost : (Tx Greetings).Op → Nat) (begins finds writes ends : Nat) : Prop where
  begin : cost .begin ≤ begins
  find : ∀ name, cost (.statement (.find name)) ≤ finds
  write : ∀ kind model, cost (.statement (.write kind model)) ≤ writes
  commit : cost .commit ≤ ends
  rollback : cost .rollback ≤ ends

theorem Rates.work {begins finds writes ends : Nat} (h : Rates cost begins finds writes ends)
    (sender : SenderName tables) :
    Prog.Within (S := Statements Greetings) (fun op => cost (.statement op))
      (work uniqueViolation sender) (finds + writes) := by
  have hperform : ∀ {op : GreetingsOp} {limit : Nat}, cost (.statement op) ≤ limit →
      Prog.Within (S := Statements Greetings) (fun op => cost (.statement op))
        (.perform (S := Statements Greetings) op) limit :=
    fun hop => (Prog.within_perform _).mono hop
  have hfind : Prog.Within (S := Statements Greetings) (fun op => cost (.statement op))
      (findBySender sender) finds := by
    rw [← Nat.add_zero finds]
    apply (hperform (h.find sender.asStr)).orReturn
    intro _
    trivial
  apply hfind.orReturn
  intro found
  rw [← Nat.add_zero writes]
  cases found with
  | none =>
    have hadd : Prog.Within (S := Statements Greetings) (fun op => cost (.statement op))
        (add uniqueViolation (Greeting.first sender)) (writes + 0) := by
      apply (hperform (h.write .insert _)).orReturn
      intro _
      trivial
    apply hadd.orReturn
    intro _
    trivial
  | some found =>
    have hupdate : Prog.Within (S := Statements Greetings) (fun op => cost (.statement op))
        (update found.recordAnother) (writes + 0) := by
      apply (hperform (h.write .update _)).orReturn
      intro _
      trivial
    apply hupdate.orReturn
    intro _
    trivial

/-- A call costs what its attempts do. -/
theorem Rates.execute {begins finds writes ends : Nat} (h : Rates cost begins finds writes ends)
    (tables : UnicodeTables) (uniqueViolation : DbErr → Bool) (input : String) :
    (execute tables uniqueViolation input).Within cost
      (maxAttempts * (begins + (finds + writes + ends))) := by
  unfold Greet.execute
  split
  · trivial
  · rename_i sender hname
    have hattempt : (attempt uniqueViolation sender).Within cost
        (begins + (finds + writes + ends)) :=
      within_run (h.work sender) h.begin h.commit h.rollback
    have htries : (Prog.retry isConflict (attempt uniqueViolation sender) (maxAttempts - 1)).Within
        cost (maxAttempts * (begins + (finds + writes + ends))) := hattempt.retry _
    rw [← Nat.add_zero (maxAttempts * _)]
    apply htries.orReturn
    intro _
    trivial

/-! ## The calls to the driver -/

/-- How many calls to the driver of some kind a call has made. -/
def callsMade (kind : Event (Tx Greetings) → Bool) (i : ι) (labels : List (Label ι)) : Nat :=
  labels.countP fun label => label.process = i ∧ kind label.event = true

theorem callsMade_snoc (kind : Event (Tx Greetings) → Bool) (i : ι) (labels : List (Label ι))
    (label : Label ι) : callsMade kind i (labels ++ [label]) = callsMade kind i labels +
      if label.process = i ∧ kind label.event = true then 1 else 0 := by
  unfold callsMade
  rw [List.countP_append, List.countP_singleton]
  simp only [decide_eq_true_eq]

/-- What a call has spent by then and what it may still spend are within its bound. -/
theorem callsMade_of_run {store : Store ι String Int64} {labels : List (Label ι)}
    {s : SystemState store} {bound : Nat} (kind : Event (Tx Greetings) → Bool)
    (hcost : ∀ event, kind event = true → cost event.1 = 1)
    (hbound : ∀ i, (execute tables uniqueViolation (inputs i)).Within cost bound)
    (hrun : Run store tables uniqueViolation inputs table labels s) (i : ι) :
    ∃ left, (s.programs i).Within cost left ∧ callsMade kind i labels + left ≤ bound := by
  refine Trace.history (I := fun labels s => ∃ left, (s.programs i).Within cost left ∧
    callsMade kind i labels + left ≤ bound) ?_ [] hrun ⟨bound, hbound i, by simp [callsMade]⟩
  intro labels s label s' h hstep
  obtain ⟨left, hwithin, hle⟩ := h
  rw [callsMade_snoc]
  cases hstep with
  | @step state program hprogram hanswers hstore =>
    by_cases hi : label.process = i
    · subst hi
      obtain ⟨hspends, hrest⟩ := hwithin.step hprogram
      refine ⟨left - cost label.event.1, ?_, ?_⟩
      · simp only [Function.update_self]
        exact hrest
      · by_cases hkind : kind label.event = true
        · have hone := hcost label.event hkind
          rw [if_pos ⟨rfl, hkind⟩]
          omega
        · rw [if_neg fun h => hkind h.2]
          omega
    · refine ⟨left, ?_, ?_⟩
      · simp only [Function.update_of_ne (Ne.symm hi)]
        exact hwithin
      · rw [if_neg fun h => hi h.1]
        omega

/-- Every call of a run is one of the calls of its processes. -/
theorem length_eq_sum_callsMade (calls : Finset ι) {labels : List (Label ι)}
    (h : ∀ label ∈ labels, label.process ∈ calls) :
    labels.length = ∑ i ∈ calls, callsMade (fun _ => true) i labels := by
  induction labels with
  | nil => simp [callsMade]
  | cons label labels ih =>
    have hrest := ih fun label' hlabel' => h label' (List.mem_cons_of_mem _ hlabel')
    have hcons : ∀ i, callsMade (fun _ => true) i (label :: labels) =
        callsMade (fun _ => true) i labels + if label.process = i then 1 else 0 := by
      intro i
      simp [callsMade, List.countP_cons]
    simp only [hcons, Finset.sum_add_distrib, ← hrest, Finset.sum_ite_eq, List.length_cons,
      if_pos (h label List.mem_cons_self)]

/-- A call to the driver for every operation of every attempt. -/
theorem callsMade_le {store : Store ι String Int64} {labels : List (Label ι)}
    {s : SystemState store} (hrun : Run store tables uniqueViolation inputs table labels s)
    (i : ι) : callsMade (fun _ => true) i labels ≤ 4 * maxAttempts := by
  have hrates : Rates (fun _ => 1) 1 1 1 1 :=
    ⟨Nat.le_refl 1, fun _ => Nat.le_refl 1, fun _ _ => Nat.le_refl 1, Nat.le_refl 1,
      Nat.le_refl 1⟩
  obtain ⟨left, _, hle⟩ := callsMade_of_run (fun _ => true) (fun _ _ => rfl)
    (fun i => hrates.execute tables uniqueViolation (inputs i)) hrun i
  rw [maxAttempts] at hle ⊢
  omega

/-- A run of finitely many calls is finite. -/
theorem length_le {store : Store ι String Int64} {labels : List (Label ι)} {s : SystemState store}
    (hrun : Run store tables uniqueViolation inputs table labels s) (calls : Finset ι)
    (h : ∀ label ∈ labels, label.process ∈ calls) :
    labels.length ≤ 4 * maxAttempts * calls.card := by
  have hconst := Finset.sum_const_nat (s := calls) (m := 4 * maxAttempts)
    (f := fun _ => 4 * maxAttempts) fun _ _ => rfl
  rw [length_eq_sum_callsMade calls h, Nat.mul_comm, ← hconst]
  exact Finset.sum_le_sum fun i _ => callsMade_le hrun i

/-! ## Transactions -/

/-- A begin that succeeds. -/
def begun : Event (Tx Greetings) → Bool
  | ⟨.begin, .ok _⟩ => true
  | _ => false

/-- A commit or a rollback, whatever it is answered with. -/
def settles : Event (Tx Greetings) → Bool
  | ⟨.commit, _⟩ | ⟨.rollback, _⟩ => true
  | _ => false

/-- A statement that writes a row. -/
def writesRow : Event (Tx Greetings) → Bool
  | ⟨.statement (.write _ _), _⟩ => true
  | _ => false

/-- A transaction is open from its begin to its commit or rollback. -/
theorem isSome_views_step {t t' : Ledger ι String Int64} {i : ι} {event : Event (Tx Greetings)}
    {action : Action String Int64} (hanswers : Answers event action)
    (hstep : ValidatedStep t (i, action) t') :
    (if begun event = true then 1 else 0) + (if (t.views i).isSome then 1 else 0) =
      (if settles event = true then 1 else 0) + if (t'.views i).isSome then 1 else 0 := by
  cases hstep with
  | begins hnone =>
    cases hanswers
    simp [begun, settles, hnone]
  | refuses hnone =>
    cases hanswers
    simp [begun, settles, hnone]
  | finds _ _ hopen | inserts _ _ hopen | updates _ _ hopen | fails hopen =>
    cases hanswers
    simp [begun, settles, hopen]
  | lands hopen | commitsNothing hopen | abandons hopen =>
    cases hanswers <;> simp [begun, settles, hopen, Ledger.land]

theorem callsMade_begun_of_run {labels : List (Label ι)}
    {t : SystemState (validated : Store ι String Int64)}
    (hrun : Run validated tables uniqueViolation inputs table labels t) (i : ι) :
    callsMade begun i labels =
      callsMade settles i labels + if (t.store.views i).isSome then 1 else 0 := by
  refine Trace.history (I := fun labels (t : SystemState (validated : Store ι String Int64)) =>
    callsMade begun i labels =
      callsMade settles i labels + if (t.store.views i).isSome then 1 else 0) ?_ [] hrun rfl
  intro labels t label t' h hstep
  rw [callsMade_snoc, callsMade_snoc]
  cases hstep with
  | @step state program hprogram hanswers hstore =>
    by_cases hi : label.process = i
    · subst hi
      have hviews := isSome_views_step hanswers hstore
      simp only [true_and]
      omega
    · have hsame : (state.views i) = t.store.views i := hstore.views_of_ne (Ne.symm hi)
      simp only [hi, false_and, if_false]
      rw [hsame]
      omega

/-- The call has a transaction open, with whatever it has locked. -/
def opens : (backend : Backend) → (storeOf ι backend).State → ι → Bool
  | .postgres, s, i => (LockState.txs s i).isSome
  | .sqlite, s, i => (SnapshotState.txs s i).isSome

/-- A database has a transaction open for a call when the store that validates has. -/
theorem exists_isSome_views (backend : Backend) : ∃ R,
    (storeOf ι backend).Refines validated R ∧
      ∀ s (t : Ledger ι String Int64), R s t → ∀ i, (t.views i).isSome = opens backend s i := by
  cases backend with
  | postgres =>
    refine ⟨_, rowLocks_refines, ?_⟩
    intro s t h i
    show _ = (LockState.txs s i).isSome
    cases htx : s.txs i with
    | none =>
      rw [h.closed i htx]
      rfl
    | some tx =>
      obtain ⟨view, hview, _⟩ := h.opened i tx htx
      rw [hview]
      rfl
  | sqlite =>
    refine ⟨_, snapshots_refines, ?_⟩
    intro s t h i
    show _ = (SnapshotState.txs s i).isSome
    cases htx : s.txs i with
    | none =>
      rw [h.closed i htx]
      rfl
    | some tx =>
      obtain ⟨view, hview, _⟩ := h.opened i tx htx
      rw [hview]
      rfl

/-! ## Runs -/

/-- What the calls of a run ask of the driver, and what they leave open. -/
structure Bounded (backend : Backend) (labels : List (Label ι))
    (s : SystemState (storeOf ι backend)) : Prop where
  calls : ∀ i, callsMade (fun _ => true) i labels ≤ 4 * maxAttempts
  attempts : ∀ i, callsMade isBegin i labels ≤ maxAttempts
  writes : ∀ i, callsMade writesRow i labels ≤ maxAttempts
  /-- Every transaction is settled once, before there is another one. -/
  settled : ∀ i, callsMade begun i labels =
    callsMade settles i labels + if opens backend s.store i then 1 else 0
  /-- A call that has answered, or has not begun, has nothing open. -/
  ended : ∀ i outcome, s.HasOutcome i outcome → opens backend s.store i = false
  idle : ∀ i, callsMade (fun _ => true) i labels = 0 → opens backend s.store i = false
  /-- A run of finitely many calls is finite. -/
  finite : ∀ calls : Finset ι, (∀ label ∈ labels, label.process ∈ calls) →
    labels.length ≤ 4 * maxAttempts * calls.card

theorem AllPlaced.closed {t : SystemState (validated : Store ι String Int64)}
    (h : AllPlaced tables uniqueViolation inputs t) {i : ι}
    {outcome : Except GreetError GreetOutput} (hi : t.HasOutcome i outcome) :
    t.store.views i = none := by
  have hplaced := h i
  rw [show t.programs i = .pure outcome from hi] at hplaced
  generalize hleft : (Prog.pure outcome : Prog (Tx Greetings) _) = left at hplaced
  generalize t.store.views i = view at hplaced
  cases hplaced with
  | rejected => rfl
  | proceeds _ hfits =>
    have hends := program_eq_pure hleft.symm
    subst hends
    cases hfits
    rfl

/-- What a call pays for its begins alone. -/
def beginCost : (Tx Greetings).Op → Nat
  | .begin => 1
  | _ => 0

/-- What it pays for its writes alone. -/
def writeCost : (Tx Greetings).Op → Nat
  | .statement (.write _ _) => 1
  | _ => 0

theorem beginCost_of_isBegin {event : Event (Tx Greetings)} (h : isBegin event = true) :
    beginCost event.1 = 1 := by
  obtain ⟨op, reply⟩ := event
  cases op with
  | begin => rfl
  | statement op | commit | rollback => cases h

theorem writeCost_of_writesRow {event : Event (Tx Greetings)} (h : writesRow event = true) :
    writeCost event.1 = 1 := by
  obtain ⟨op, reply⟩ := event
  cases op with
  | statement op =>
    cases op with
    | find => cases h
    | write => rfl
  | begin | commit | rollback => cases h

theorem callsMade_mono {kind kind' : Event (Tx Greetings) → Bool}
    (h : ∀ event, kind event = true → kind' event = true) (i : ι) (labels : List (Label ι)) :
    callsMade kind i labels ≤ callsMade kind' i labels := by
  apply List.countP_mono_left
  intro label _ hlabel
  simp only [decide_eq_true_eq] at hlabel ⊢
  exact ⟨hlabel.1, h _ hlabel.2⟩

/-- A call is bounded, and ends every transaction that it begins. -/
theorem calls_end_what_they_begin (backend : Backend) (tables : UnicodeTables)
    (uniqueViolation : DbErr → Bool) (inputs : ι → String) (table : String → Option Int64)
    (labels : List (Label ι)) (s : SystemState (storeOf ι backend))
    (hrun : Run (storeOf ι backend) tables uniqueViolation inputs table labels s) :
    Bounded backend labels s := by
  obtain ⟨R, hrefines, hopens⟩ := exists_isSome_views (ι := ι) backend
  obtain ⟨t, hvalidated, hsame⟩ := hrun.refines hrefines
  have hplaced : AllPlaced tables uniqueViolation inputs t :=
    Trace.invariant (fun hplaced hstep => (hplaced.step hstep).placed) hvalidated
      fun i => placed_execute tables uniqueViolation (inputs i)
  have hsettled : ∀ i, callsMade begun i labels =
      callsMade settles i labels + if opens backend s.store i then 1 else 0 := by
    intro i
    rw [← hopens s.store t.store hsame.store i]
    exact callsMade_begun_of_run hvalidated i
  refine ⟨callsMade_le hrun, ?_, ?_, hsettled, ?_, ?_, length_le hrun⟩
  · intro i
    have hrates : Rates beginCost 1 0 0 0 :=
      ⟨Nat.le_refl 1, fun _ => Nat.le_refl 0, fun _ _ => Nat.le_refl 0, Nat.le_refl 0,
        Nat.le_refl 0⟩
    obtain ⟨left, _, hle⟩ := callsMade_of_run isBegin (fun _ => beginCost_of_isBegin)
      (fun i => hrates.execute tables uniqueViolation (inputs i)) hrun i
    omega
  · intro i
    have hrates : Rates writeCost 0 0 1 0 :=
      ⟨Nat.le_refl 0, fun _ => Nat.le_refl 0, fun _ _ => Nat.le_refl 1, Nat.le_refl 0,
        Nat.le_refl 0⟩
    obtain ⟨left, _, hle⟩ := callsMade_of_run writesRow
      (fun _ => writeCost_of_writesRow)
      (fun i => hrates.execute tables uniqueViolation (inputs i)) hrun i
    omega
  · intro i outcome hi
    have hview : t.HasOutcome i outcome := by
      rw [SystemState.HasOutcome, hsame.programs]
      exact hi
    rw [← hopens s.store t.store hsame.store i, hplaced.closed hview]
    rfl
  · intro i hnone
    have hbegun : callsMade begun i labels ≤ callsMade (fun _ => true) i labels :=
      callsMade_mono (fun _ _ => rfl) i labels
    have hbalance := hsettled i
    by_cases hopen : opens backend s.store i = true
    · rw [if_pos hopen] at hbalance
      omega
    · exact Bool.eq_false_iff.mpr hopen

theorem calls_end_what_they_begin_race : ∃ s : SystemState (storeOf Bool .postgres),
    Bounded .postgres race s := by
  obtain ⟨s, hrun⟩ := race_runs
  exact ⟨s, calls_end_what_they_begin .postgres .ascii sqlUnique (fun _ => "ada") (fun _ => none)
    race s hrun⟩

end QuizArena.Greet
