import QuizArena.Lib.Store

/-!
# Snapshots and a single writer

A store in which a transaction reads from the rows as they were at its first statement.
One transaction at a time may write, from its first write to its end, and only if
nothing has landed since its snapshot. A statement that fails undoes itself and leaves
the transaction open.
-/

namespace QuizArena.Lib

variable {ι K V : Type}

/-- A transaction: the rows it reads from and when they were committed, its writes, and
    whether it is the writer. -/
structure SnapshotTx (K V : Type) where
  snapshot : Option (Nat × (K → Option V))
  pending : K → Option V
  writing : Bool

/-- A transaction that has just begun. -/
def SnapshotTx.fresh : SnapshotTx K V := ⟨none, fun _ => none, false⟩

/-- The committed rows, how many times they have changed, and the open transactions. -/
structure SnapshotState (ι K V : Type) where
  committed : K → Option V
  version : Nat
  txs : ι → Option (SnapshotTx K V)

/-- The snapshot that a statement reads from, taken now unless there is one. -/
def SnapshotState.base (s : SnapshotState ι K V) (tx : SnapshotTx K V) :
    Nat × (K → Option V) :=
  tx.snapshot.getD (s.version, s.committed)

theorem SnapshotState.base_of_none {s : SnapshotState ι K V} {tx : SnapshotTx K V}
    (h : tx.snapshot = none) : s.base tx = (s.version, s.committed) := by
  rw [SnapshotState.base, h, Option.getD_none]

/-- The rows that a statement sees. -/
def SnapshotState.rows (s : SnapshotState ι K V) (tx : SnapshotTx K V) : K → Option V :=
  overlay tx.pending (s.base tx).2

/-- The transaction may write: its snapshot is not stale, and no other one writes. -/
def SnapshotState.MayWrite (s : SnapshotState ι K V) (i : ι) (tx : SnapshotTx K V) : Prop :=
  (s.base tx).1 = s.version ∧ ∀ j tx', j ≠ i → s.txs j = some tx' → tx'.writing = false

/-- The transaction after a statement that reads. -/
def SnapshotState.reads (s : SnapshotState ι K V) (tx : SnapshotTx K V) : SnapshotTx K V :=
  { tx with snapshot := some (s.base tx) }

/-- The transaction after a statement that becomes the writer. -/
def SnapshotState.claims (s : SnapshotState ι K V) (tx : SnapshotTx K V) : SnapshotTx K V :=
  { s.reads tx with writing := true }

/-! ## What the writer was told is still so -/

/-- A transaction and what it was told. -/
structure SnapshotTx.Sees (tx : SnapshotTx K V) (view : View K V) (committed : K → Option V)
    (version : Nat) : Prop where
  pending : view.pending = tx.pending
  untouched : view.touched = false → tx.snapshot = none
  seen : ∀ key row, view.seen key = some row →
    ∃ at_ rows, tx.snapshot = some (at_, rows) ∧ rows key = row
  writes : ∀ key, tx.pending key ≠ none → tx.writing = true
  past : ∀ at_ rows, tx.snapshot = some (at_, rows) →
    at_ ≤ version ∧ (at_ = version → rows = committed)
  current : tx.writing = true → ∃ rows, tx.snapshot = some (version, rows)

/-- The invariant of the transactions in flight. -/
structure SnapshotSim (s : SnapshotState ι K V) (t : Ledger ι K V) : Prop where
  committed : t.committed = s.committed
  closed : ∀ i, s.txs i = none → t.views i = none
  opened : ∀ i tx, s.txs i = some tx → ∃ view, t.views i = some view ∧
    tx.Sees view s.committed s.version
  writer : ∀ i j tx tx', s.txs i = some tx → s.txs j = some tx' →
    tx.writing = true → tx'.writing = true → i = j

theorem SnapshotTx.Sees.fresh (committed : K → Option V) (version : Nat) :
    (SnapshotTx.fresh : SnapshotTx K V).Sees View.fresh committed version where
  pending := rfl
  untouched _ := rfl
  seen key row h := by cases h
  writes key h := absurd rfl h
  past at_ rows h := by cases h
  current h := by cases h

/-- What the writer was told is still so when it lands. -/
theorem SnapshotTx.Sees.valid {tx : SnapshotTx K V} {view : View K V} {committed : K → Option V}
    {version : Nat} (h : tx.Sees view committed version) : view.Valid committed := by
  intro key row hseen hpending
  rw [h.pending] at hpending
  obtain ⟨rows, hsnapshot⟩ := h.current (h.writes key hpending)
  obtain ⟨at_, rows', hsnapshot', hrow⟩ := h.seen key row hseen
  rw [hsnapshot] at hsnapshot'
  cases hsnapshot'
  rw [← (h.past version rows hsnapshot).2 rfl]
  exact hrow

/-- A transaction that is not the writer, when the writer lands. -/
theorem SnapshotTx.Sees.overtaken {tx : SnapshotTx K V} {view : View K V}
    {committed committed' : K → Option V} {version : Nat} (h : tx.Sees view committed version)
    (hnot : tx.writing = false) : tx.Sees view committed' (version + 1) where
  pending := h.pending
  untouched := h.untouched
  seen := h.seen
  writes := h.writes
  past := by
    intro at_ rows hsnapshot
    have hle := (h.past at_ rows hsnapshot).1
    exact ⟨by omega, fun heq => by omega⟩
  current := by
    intro htrue
    rw [hnot] at htrue
    cases htrue

theorem SnapshotTx.Sees.fails {tx : SnapshotTx K V} {view : View K V}
    {committed : K → Option V} {version : Nat} (h : tx.Sees view committed version) :
    tx.Sees view.fail committed version where
  pending := h.pending
  untouched := by
    intro hfalse
    cases hfalse
  seen := h.seen
  writes := h.writes
  past := h.past
  current := h.current

section Statement

variable {s : SnapshotState ι K V} {tx : SnapshotTx K V} {view : View K V}

/-- The snapshot of a statement is one of the past, and the present unless it is stale. -/
theorem SnapshotTx.Sees.base (h : tx.Sees view s.committed s.version) :
    (s.base tx).1 ≤ s.version ∧ ((s.base tx).1 = s.version → (s.base tx).2 = s.committed) := by
  unfold SnapshotState.base
  cases hsnapshot : tx.snapshot with
  | none => exact ⟨Nat.le_refl _, fun _ => rfl⟩
  | some snapshot => exact h.past snapshot.1 snapshot.2 hsnapshot

/-- What was told before was told from the snapshot of the statement. -/
theorem SnapshotTx.Sees.seen_base (h : tx.Sees view s.committed s.version) {key : K}
    {row : Option V} (hseen : view.seen key = some row) : (s.base tx).2 key = row := by
  obtain ⟨at_, rows, hsnapshot, hrow⟩ := h.seen key row hseen
  rw [SnapshotState.base, hsnapshot]
  exact hrow

/-- A statement reads: what it is told is what its snapshot says. -/
theorem SnapshotTx.Sees.reads (h : tx.Sees view s.committed s.version) (view' : View K V)
    (hpending : view'.pending = view.pending) (htouched : view'.touched = true)
    (hseen : ∀ key row, view'.seen key = some row → (s.base tx).2 key = row) :
    (s.reads tx).Sees view' s.committed s.version where
  pending := hpending.trans h.pending
  untouched := by
    intro hfalse
    rw [htouched] at hfalse
    cases hfalse
  seen key row hkey := ⟨_, _, rfl, hseen key row hkey⟩
  writes := h.writes
  past := by
    intro at_ rows hsnapshot
    have heq : s.base tx = (at_, rows) := Option.some.inj hsnapshot
    have hbase := h.base
    rw [heq] at hbase
    exact hbase
  current := by
    intro hwriting
    obtain ⟨rows, hsnapshot⟩ := h.current hwriting
    refine ⟨rows, ?_⟩
    show some (s.base tx) = _
    rw [SnapshotState.base, hsnapshot]
    rfl

/-- A transaction that may write becomes the writer. -/
theorem SnapshotTx.Sees.claims {i : ι} (h : tx.Sees view s.committed s.version)
    (view' : View K V) (hmay : s.MayWrite i tx)
    (htouched : view'.touched = true)
    (hseen : ∀ key row, view'.seen key = some row → (s.base tx).2 key = row) :
    ({ s.claims tx with pending := view'.pending } : SnapshotTx K V).Sees view' s.committed
      s.version where
  pending := rfl
  untouched := by
    intro hfalse
    rw [htouched] at hfalse
    cases hfalse
  seen key row hkey := ⟨_, _, rfl, hseen key row hkey⟩
  writes _ _ := rfl
  past := by
    intro at_ rows hsnapshot
    have heq : s.base tx = (at_, rows) := Option.some.inj hsnapshot
    have hbase := h.base
    rw [heq] at hbase
    exact hbase
  current := by
    intro _
    refine ⟨(s.base tx).2, ?_⟩
    show some (s.base tx) = _
    rw [← hmay.1]

theorem SnapshotTx.Sees.seen_find [DecidableEq K] (h : tx.Sees view s.committed s.version)
    {key key' : K} {row : Option V}
    (hseen : (view.find key (s.rows tx key)).seen key' = some row) : (s.base tx).2 key' = row := by
  by_cases hown : view.pending key = none
  · have hfind : (view.find key (s.rows tx key)).seen =
        Function.update view.seen key (some (s.rows tx key)) := if_pos hown
    rw [hfind] at hseen
    by_cases heq : key' = key
    · subst heq
      rw [Function.update_self] at hseen
      cases hseen
      rw [h.pending] at hown
      exact (overlay_of_none hown).symm
    · rw [Function.update_of_ne heq] at hseen
      exact h.seen_base hseen
  · have hfind : (view.find key (s.rows tx key)).seen = view.seen := if_neg hown
    rw [hfind] at hseen
    exact h.seen_base hseen

theorem SnapshotTx.Sees.seen_insert [DecidableEq K] (h : tx.Sees view s.committed s.version)
    {key key' : K} {value : V}
    {row : Option V} (hrow : s.rows tx key = none)
    (hseen : (view.insert key value).seen key' = some row) : (s.base tx).2 key' = row := by
  simp only [View.insert] at hseen
  by_cases heq : key' = key
  · subst heq
    rw [Function.update_self] at hseen
    cases hseen
    exact (Option.or_eq_none_iff.mp hrow).2
  · rw [Function.update_of_ne heq] at hseen
    exact h.seen_base hseen

theorem SnapshotTx.Sees.seen_update [DecidableEq K] (h : tx.Sees view s.committed s.version)
    {key key' : K} {value : V}
    {row : Option V} (hseen : (view.update key value).seen key' = some row) :
    (s.base tx).2 key' = row := by
  simp only [View.update] at hseen
  by_cases heq : key' = key
  · subst heq
    rw [Function.update_self] at hseen
    exact h.seen_base (Option.filter_eq_some_iff.mp hseen).1
  · rw [Function.update_of_ne heq] at hseen
    exact h.seen_base hseen

end Statement

variable [DecidableEq ι]

/-- The transaction of a client becomes another one, or none. -/
def SnapshotState.set (s : SnapshotState ι K V) (i : ι) (tx : Option (SnapshotTx K V)) :
    SnapshotState ι K V :=
  { s with txs := Function.update s.txs i tx }

/-- The writes of a transaction become part of the committed rows. -/
def SnapshotState.land (s : SnapshotState ι K V) (i : ι) (tx : SnapshotTx K V) :
    SnapshotState ι K V :=
  ⟨overlay tx.pending s.committed, if tx.writing then s.version + 1 else s.version,
    Function.update s.txs i none⟩

/-- One transaction changes and the committed rows do not. -/
theorem SnapshotSim.set {s : SnapshotState ι K V} {t : Ledger ι K V} (h : SnapshotSim s t)
    (i : ι) {tx : Option (SnapshotTx K V)} {view : Option (View K V)}
    (hnone : tx = none → view = none)
    (hsees : ∀ tx', tx = some tx' → ∃ view', view = some view' ∧
      tx'.Sees view' s.committed s.version)
    (hwriter : ∀ tx', tx = some tx' → tx'.writing = true →
      ∀ j tx'', j ≠ i → s.txs j = some tx'' → tx''.writing = false) :
    SnapshotSim (s.set i tx) (t.set i view) where
  committed := h.committed
  closed := by
    intro j hj
    simp only [SnapshotState.set] at hj
    by_cases hji : j = i
    · subst hji
      rw [Function.update_self] at hj
      simp only [Ledger.views_set, Function.update_self]
      exact hnone hj
    · rw [Function.update_of_ne hji] at hj
      simp only [Ledger.views_set, Function.update_of_ne hji]
      exact h.closed j hj
  opened := by
    intro j tx' hj
    simp only [SnapshotState.set] at hj
    by_cases hji : j = i
    · subst hji
      rw [Function.update_self] at hj
      simp only [Ledger.views_set, Function.update_self]
      exact hsees tx' hj
    · rw [Function.update_of_ne hji] at hj
      simp only [Ledger.views_set, Function.update_of_ne hji]
      exact h.opened j tx' hj
  writer := by
    intro j k tx₁ tx₂ hj hk hwriting hwriting'
    simp only [SnapshotState.set] at hj hk
    by_cases hji : j = i
    · subst hji
      by_cases hkj : k = j
      · exact hkj.symm
      · rw [Function.update_self] at hj
        rw [Function.update_of_ne hkj] at hk
        have hnot := hwriter tx₁ hj hwriting k tx₂ hkj hk
        rw [hwriting'] at hnot
        cases hnot
    · rw [Function.update_of_ne hji] at hj
      by_cases hki : k = i
      · subst hki
        rw [Function.update_self] at hk
        have hnot := hwriter tx₂ hk hwriting' j tx₁ hji hj
        rw [hwriting] at hnot
        cases hnot
      · rw [Function.update_of_ne hki] at hk
        exact h.writer j k tx₁ tx₂ hj hk hwriting hwriting'

theorem SnapshotSim.land {s : SnapshotState ι K V} {t : Ledger ι K V} (h : SnapshotSim s t)
    {i : ι} {tx : SnapshotTx K V} {view : View K V} (htx : s.txs i = some tx)
    (hsees : tx.Sees view s.committed s.version) : SnapshotSim (s.land i tx) (t.land i view) where
  committed := by
    show overlay view.pending t.committed = overlay tx.pending s.committed
    rw [hsees.pending, h.committed]
  closed := by
    intro j hj
    simp only [SnapshotState.land] at hj
    show Function.update t.views i none j = none
    by_cases hji : j = i
    · subst hji
      exact Function.update_self ..
    · rw [Function.update_of_ne hji] at hj ⊢
      exact h.closed j hj
  opened := by
    intro j tx' hj
    simp only [SnapshotState.land] at hj
    by_cases hji : j = i
    · subst hji
      rw [Function.update_self] at hj
      cases hj
    · rw [Function.update_of_ne hji] at hj
      obtain ⟨view', hview', hsees'⟩ := h.opened j tx' hj
      refine ⟨view', ?_, ?_⟩
      · show Function.update t.views i none j = some view'
        rw [Function.update_of_ne hji]
        exact hview'
      · show tx'.Sees view' (overlay tx.pending s.committed)
          (if tx.writing then s.version + 1 else s.version)
        cases hwriting : tx.writing with
        | true =>
          apply hsees'.overtaken
          rw [Bool.eq_false_iff]
          intro hwriting'
          exact hji (h.writer j i tx' tx hj htx hwriting' hwriting)
        | false =>
          have hpending : tx.pending = fun _ => none := by
            funext key
            by_contra hne
            rw [hsees.writes key hne] at hwriting
            cases hwriting
          rw [hpending]
          exact hsees'
  writer := by
    intro j k tx₁ tx₂ hj hk
    have hold : ∀ j tx', (s.land i tx).txs j = some tx' → s.txs j = some tx' := by
      intro j tx' hj
      simp only [SnapshotState.land] at hj
      by_cases hji : j = i
      · subst hji
        rw [Function.update_self] at hj
        cases hj
      · rw [Function.update_of_ne hji] at hj
        exact hj
    exact h.writer j k tx₁ tx₂ (hold j tx₁ hj) (hold k tx₂ hk)

/-- A statement of a transaction. -/
theorem SnapshotSim.statement {s : SnapshotState ι K V} {t : Ledger ι K V} (h : SnapshotSim s t)
    {i : ι} {tx tx' : SnapshotTx K V} {view' : View K V} (htx : s.txs i = some tx)
    (hsees : tx'.Sees view' s.committed s.version)
    (hwriter : tx'.writing = true → tx.writing = true ∨ s.MayWrite i tx) :
    SnapshotSim (s.set i (some tx')) (t.set i (some view')) := by
  apply h.set
  · intro hnone
    cases hnone
  · intro tx'' htx''
    cases htx''
    exact ⟨view', rfl, hsees⟩
  · intro tx'' htx'' hwriting j tx₁ hji htx₁
    cases htx''
    rcases hwriter hwriting with hold | hmay
    · rw [Bool.eq_false_iff]
      intro hwriting'
      exact hji (h.writer j i tx₁ tx htx₁ htx hwriting' hold)
    · exact hmay.2 j tx₁ hji htx₁

variable [DecidableEq K]

/-- The transaction after a statement that writes a row. -/
def SnapshotState.writes (s : SnapshotState ι K V) (tx : SnapshotTx K V) (key : K) (value : V) :
    SnapshotTx K V :=
  { s.claims tx with pending := Function.update tx.pending key (some value) }

inductive SnapshotStep : SnapshotState ι K V → ι × Action K V → SnapshotState ι K V → Prop where
  | begins {s : SnapshotState ι K V} {i : ι} : s.txs i = none →
      SnapshotStep s (i, .begins) (s.set i (some .fresh))
  | refuses {s : SnapshotState ι K V} {i : ι} : s.txs i = none → SnapshotStep s (i, .refuses) s
  | finds {s : SnapshotState ι K V} {i : ι} {tx : SnapshotTx K V} (key : K) :
      s.txs i = some tx →
      SnapshotStep s (i, .finds key (s.rows tx key)) (s.set i (some (s.reads tx)))
  | inserts {s : SnapshotState ι K V} {i : ι} {tx : SnapshotTx K V} {key : K} (value : V) :
      s.txs i = some tx → s.MayWrite i tx → s.rows tx key = none →
      SnapshotStep s (i, .inserts key value) (s.set i (some (s.writes tx key value)))
  | updates {s : SnapshotState ι K V} {i : ι} {tx : SnapshotTx K V} {key : K} (value : V) :
      s.txs i = some tx → s.MayWrite i tx → s.rows tx key ≠ none →
      SnapshotStep s (i, .updates key value) (s.set i (some (s.writes tx key value)))
  | fails {s : SnapshotState ι K V} {i : ι} {tx tx' : SnapshotTx K V} : s.txs i = some tx →
      tx' = tx ∨ tx' = s.reads tx ∨ s.MayWrite i tx ∧ tx' = s.claims tx →
      SnapshotStep s (i, .fails) (s.set i (some tx'))
  | lands {s : SnapshotState ι K V} {i : ι} {tx : SnapshotTx K V} : s.txs i = some tx →
      SnapshotStep s (i, .lands) (s.land i tx)
  | abandons {s : SnapshotState ι K V} {i : ι} {tx : SnapshotTx K V} : s.txs i = some tx →
      SnapshotStep s (i, .abandons) (s.set i none)

/-- The store of snapshots with a single writer. -/
def snapshots : Store ι K V where
  State := SnapshotState ι K V
  start table := ⟨table, 0, fun _ => none⟩
  committed := SnapshotState.committed
  step := SnapshotStep

/-- Every step can be followed. -/
theorem SnapshotSim.step {s s' : SnapshotState ι K V} {t : Ledger ι K V} {label : ι × Action K V}
    (h : SnapshotSim s t) (hstep : SnapshotStep s label s') :
    ∃ t', ValidatedStep t label t' ∧ SnapshotSim s' t' := by
  cases hstep with
  | @begins i hnone =>
    refine ⟨_, .begins (h.closed i hnone), ?_⟩
    refine h.set i (fun hsome => by cases hsome) ?_ ?_
    · intro tx htx
      cases htx
      exact ⟨_, rfl, .fresh s.committed s.version⟩
    · intro tx htx hwriting
      cases htx
      cases hwriting
  | @refuses i hnone => exact ⟨t, .refuses (h.closed i hnone), h⟩
  | @finds i tx key htx =>
    obtain ⟨view, hview, hsees⟩ := h.opened i tx htx
    refine ⟨_, .finds key (s.rows tx key) hview ?_, ?_⟩
    · intro huntouched
      have hown : tx.pending key = none := by
        by_contra hne
        rw [← hsees.pending] at hne
        rw [view.touched_of_pending key hne] at huntouched
        cases huntouched
      show overlay tx.pending (s.base tx).2 key = t.committed key
      rw [overlay_of_none hown, SnapshotState.base_of_none (hsees.untouched huntouched),
        h.committed]
    · have hsees' := hsees.reads (view.find key (s.rows tx key)) rfl rfl
        fun _ _ => hsees.seen_find
      exact h.statement htx hsees' (fun hwriting => Or.inl hwriting)
  | @inserts i tx key value htx hmay hrow =>
    obtain ⟨view, hview, hsees⟩ := h.opened i tx htx
    refine ⟨_, .inserts key value hview, ?_⟩
    have hsees' := hsees.claims (view.insert key value) hmay rfl
      fun _ _ => hsees.seen_insert hrow
    have hpending : (view.insert key value).pending =
        Function.update tx.pending key (some value) := by
      rw [← hsees.pending]
      rfl
    rw [hpending] at hsees'
    exact h.statement htx hsees' (fun _ => Or.inr hmay)
  | @updates i tx key value htx hmay hrow =>
    obtain ⟨view, hview, hsees⟩ := h.opened i tx htx
    refine ⟨_, .updates key value hview, ?_⟩
    have hsees' := hsees.claims (view.update key value) hmay rfl
      fun _ _ => hsees.seen_update
    have hpending : (view.update key value).pending =
        Function.update tx.pending key (some value) := by
      rw [← hsees.pending]
      rfl
    rw [hpending] at hsees'
    exact h.statement htx hsees' (fun _ => Or.inr hmay)
  | @fails i tx tx' htx hcases =>
    obtain ⟨view, hview, hsees⟩ := h.opened i tx htx
    refine ⟨_, .fails hview, ?_⟩
    rcases hcases with rfl | rfl | ⟨hmay, rfl⟩
    · exact h.statement htx hsees.fails (fun hwriting => Or.inl hwriting)
    · have hsees' := hsees.reads view.fail rfl rfl fun _ _ => hsees.seen_base
      exact h.statement htx hsees' (fun hwriting => Or.inl hwriting)
    · have hsees' := hsees.claims view.fail hmay rfl fun _ _ => hsees.seen_base
      have hpending : view.fail.pending = tx.pending := hsees.pending
      rw [hpending] at hsees'
      exact h.statement htx hsees' (fun _ => Or.inr hmay)
  | @lands i tx htx =>
    obtain ⟨view, hview, hsees⟩ := h.opened i tx htx
    refine ⟨_, .lands hview ?_, h.land htx hsees⟩
    rw [h.committed]
    exact hsees.valid
  | @abandons i tx htx =>
    obtain ⟨view, hview, _⟩ := h.opened i tx htx
    refine ⟨_, .abandons hview, ?_⟩
    refine h.set i (fun _ => rfl) ?_ ?_
    · intro tx' htx'
      cases htx'
    · intro tx' htx'
      cases htx'

/-- With snapshots and a single writer a store lets nothing land that is not valid. -/
theorem snapshots_refines : (snapshots : Store ι K V).Refines validated SnapshotSim where
  start table := by
    refine ⟨rfl, fun _ _ => rfl, ?_, ?_⟩
    · intro i tx htx
      cases htx
    · intro i j tx tx' htx
      cases htx
  committed h := h.committed
  step h hstep := h.step hstep

end QuizArena.Lib
