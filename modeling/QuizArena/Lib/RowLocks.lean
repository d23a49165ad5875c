import QuizArena.Lib.Store

/-!
# Locks on rows

A store in which a lookup locks the row it finds, an update the row it changes and an
insert the key it takes, each until the end of the transaction. A lookup that finds
nothing locks nothing, so the row can be there by the time of the insert, which then
cannot succeed. A statement reads what is committed at its time, and one that fails
leaves a transaction that can do nothing more, with or without its locks.
-/

namespace QuizArena.Lib

variable {ι K V : Type}

/-- A transaction: its writes and the keys it has locked. -/
structure LockTx (K V : Type) where
  pending : K → Option V
  holds : K → Bool
  aborted : Bool

/-- A transaction that has just begun. -/
def LockTx.fresh : LockTx K V := ⟨fun _ => none, fun _ => false, false⟩

/-- The committed rows and the open transactions. -/
structure LockState (ι K V : Type) where
  committed : K → Option V
  txs : ι → Option (LockTx K V)

/-- No other transaction has locked the key. -/
def LockState.Free (s : LockState ι K V) (i : ι) (key : K) : Prop :=
  ∀ j tx, j ≠ i → s.txs j = some tx → tx.holds key = false

/-! ## What a transaction was told of a row it has locked is still so -/

/-- A transaction that can still land, and what it was told. -/
structure LockTx.Sees (tx : LockTx K V) (view : View K V) (committed : K → Option V) : Prop where
  pending : view.pending = tx.pending
  locked : ∀ key, tx.pending key ≠ none → tx.holds key = true
  found : ∀ key value, view.seen key = some (some value) →
    tx.holds key = true ∧ committed key = some value
  absent : ∀ key, view.seen key = some none → tx.pending key ≠ none → committed key = none

/-- The invariant of the transactions in flight: no key is locked twice, and whoever can
    still land sees what is committed. -/
structure LockSim (s : LockState ι K V) (t : Ledger ι K V) : Prop where
  committed : t.committed = s.committed
  closed : ∀ i, s.txs i = none → t.views i = none
  opened : ∀ i tx, s.txs i = some tx → ∃ view, t.views i = some view ∧
    (tx.aborted = true → view.failed = true) ∧
    (tx.aborted = false → tx.Sees view s.committed)
  exclusive : ∀ i j tx tx' key, s.txs i = some tx → s.txs j = some tx' →
    tx.holds key = true → tx'.holds key = true → i = j

/-- What a transaction has locked no other one has. -/
theorem LockSim.free {s : LockState ι K V} {t : Ledger ι K V} (h : LockSim s t) {i : ι}
    {tx : LockTx K V} {key : K} (htx : s.txs i = some tx) (hholds : tx.holds key = true) :
    s.Free i key := by
  intro j tx' hji htx'
  rw [Bool.eq_false_iff]
  intro hholds'
  exact hji (h.exclusive j i tx' tx key htx' htx hholds' hholds)

/-- The transaction of a client that can still land. -/
theorem LockSim.sees {s : LockState ι K V} {t : Ledger ι K V} (h : LockSim s t) {i : ι}
    {tx : LockTx K V} (htx : s.txs i = some tx) (hnot : tx.aborted = false) :
    ∃ view, t.views i = some view ∧ tx.Sees view s.committed := by
  obtain ⟨view, hview, _, hsees⟩ := h.opened i tx htx
  exact ⟨view, hview, hsees hnot⟩

theorem LockTx.Sees.fresh (committed : K → Option V) :
    (LockTx.fresh : LockTx K V).Sees View.fresh committed where
  pending := rfl
  locked key h := absurd rfl h
  found key value h := by cases h
  absent key h := by cases h

/-- What a transaction writes it has validated all along. -/
theorem LockTx.Sees.valid {tx : LockTx K V} {view : View K V} {committed : K → Option V}
    (h : tx.Sees view committed) : view.Valid committed := by
  intro key row hseen hpending
  cases row with
  | none =>
    rw [h.pending] at hpending
    exact h.absent key hseen hpending
  | some value => exact (h.found key value hseen).2

/-- Nobody else sees the rows that a transaction lands. -/
theorem LockTx.Sees.lands {tx tx' : LockTx K V} {view : View K V} {committed : K → Option V}
    (h : tx.Sees view committed)
    (hfree : ∀ key, tx.holds key = true → tx'.pending key = none) :
    tx.Sees view (overlay tx'.pending committed) := by
  refine ⟨h.pending, h.locked, ?_, ?_⟩
  · intro key value hseen
    obtain ⟨hholds, hrow⟩ := h.found key value hseen
    rw [overlay_of_none (hfree key hholds)]
    exact ⟨hholds, hrow⟩
  · intro key hseen hpending
    rw [overlay_of_none (hfree key (h.locked key hpending))]
    exact h.absent key hseen hpending

variable [DecidableEq ι]

/-- The transaction of a client becomes another one, or none. -/
def LockState.set (s : LockState ι K V) (i : ι) (tx : Option (LockTx K V)) : LockState ι K V :=
  { s with txs := Function.update s.txs i tx }

/-- The writes of a transaction become part of the committed rows. -/
def LockState.land (s : LockState ι K V) (i : ι) (tx : LockTx K V) : LockState ι K V :=
  ⟨overlay tx.pending s.committed, Function.update s.txs i none⟩

theorem LockState.set_self {s : LockState ι K V} {i : ι} {tx : LockTx K V}
    (h : s.txs i = some tx) : s.set i (some tx) = s := by
  rw [LockState.set, ← h, Function.update_eq_self]

/-- One transaction changes and the committed rows do not. -/
theorem LockSim.set {s : LockState ι K V} {t : Ledger ι K V} (h : LockSim s t) (i : ι)
    {tx : Option (LockTx K V)} {view : Option (View K V)} (hnone : tx = none → view = none)
    (hsees : ∀ tx', tx = some tx' → ∃ view', view = some view' ∧
      (tx'.aborted = true → view'.failed = true) ∧
      (tx'.aborted = false → tx'.Sees view' s.committed))
    (hlocks : ∀ tx' key, tx = some tx' → tx'.holds key = true → s.Free i key) :
    LockSim (s.set i tx) (t.set i view) where
  committed := h.committed
  closed := by
    intro j hj
    by_cases hji : j = i
    · subst hji
      simp only [LockState.set, Function.update_self] at hj
      simp only [Ledger.views_set, Function.update_self]
      exact hnone hj
    · simp only [LockState.set, Function.update_of_ne hji] at hj
      simp only [Ledger.views_set, Function.update_of_ne hji]
      exact h.closed j hj
  opened := by
    intro j tx' hj
    by_cases hji : j = i
    · subst hji
      simp only [LockState.set, Function.update_self] at hj
      simp only [Ledger.views_set, Function.update_self]
      exact hsees tx' hj
    · simp only [LockState.set, Function.update_of_ne hji] at hj
      simp only [Ledger.views_set, Function.update_of_ne hji]
      exact h.opened j tx' hj
  exclusive := by
    intro j k tx₁ tx₂ key hj hk hholds hholds'
    simp only [LockState.set] at hj hk
    by_cases hji : j = i
    · subst hji
      by_cases hkj : k = j
      · exact hkj.symm
      · rw [Function.update_self] at hj
        rw [Function.update_of_ne hkj] at hk
        have hfree := hlocks tx₁ key hj hholds k tx₂ hkj hk
        rw [hholds'] at hfree
        cases hfree
    · rw [Function.update_of_ne hji] at hj
      by_cases hki : k = i
      · subst hki
        rw [Function.update_self] at hk
        have hfree := hlocks tx₂ key hk hholds' j tx₁ hji hj
        rw [hholds] at hfree
        cases hfree
      · rw [Function.update_of_ne hki] at hk
        exact h.exclusive j k tx₁ tx₂ key hj hk hholds hholds'

/-- A transaction that is given up leaves the others as they were. -/
theorem LockSim.closes {s : LockState ι K V} {t : Ledger ι K V} (h : LockSim s t) (i : ι) :
    LockSim (s.set i none) (t.set i none) := by
  refine h.set i (fun _ => rfl) ?_ ?_
  · intro tx htx
    cases htx
  · intro tx key htx
    cases htx

theorem LockSim.land {s : LockState ι K V} {t : Ledger ι K V} (h : LockSim s t) {i : ι}
    {tx : LockTx K V} {view : View K V} (htx : s.txs i = some tx)
    (hsees : tx.Sees view s.committed) : LockSim (s.land i tx) (t.land i view) where
  committed := by
    show overlay view.pending t.committed = overlay tx.pending s.committed
    rw [hsees.pending, h.committed]
  closed := by
    intro j hj
    show Function.update t.views i none j = none
    by_cases hji : j = i
    · subst hji
      exact Function.update_self ..
    · rw [Function.update_of_ne hji]
      simp only [LockState.land, Function.update_of_ne hji] at hj
      exact h.closed j hj
  opened := by
    intro j tx' hj
    simp only [LockState.land] at hj
    by_cases hji : j = i
    · subst hji
      rw [Function.update_self] at hj
      cases hj
    · rw [Function.update_of_ne hji] at hj
      obtain ⟨view', hview', haborted, hsees'⟩ := h.opened j tx' hj
      refine ⟨view', ?_, haborted, ?_⟩
      · show Function.update t.views i none j = some view'
        rw [Function.update_of_ne hji]
        exact hview'
      · intro hnot
        apply (hsees' hnot).lands
        intro key hholds
        by_contra hpending
        exact hji (h.exclusive j i tx' tx key hj htx hholds (hsees.locked key hpending))
  exclusive := by
    intro j k tx₁ tx₂ key hj hk
    have hold : ∀ j tx', (s.land i tx).txs j = some tx' → s.txs j = some tx' := by
      intro j tx' hj
      simp only [LockState.land] at hj
      by_cases hji : j = i
      · subst hji
        rw [Function.update_self] at hj
        cases hj
      · rw [Function.update_of_ne hji] at hj
        exact hj
    exact h.exclusive j k tx₁ tx₂ key (hold j tx₁ hj) (hold k tx₂ hk)

/-- A statement of a transaction succeeds. -/
theorem LockSim.statement {s : LockState ι K V} {t : Ledger ι K V} (h : LockSim s t) {i : ι}
    {tx tx' : LockTx K V} {view' : View K V} (htx : s.txs i = some tx)
    (hsees : tx'.Sees view' s.committed) (haborted : tx'.aborted = false)
    (hlocks : ∀ key, tx'.holds key = true → tx.holds key = true ∨ s.Free i key) :
    LockSim (s.set i (some tx')) (t.set i (some view')) := by
  apply h.set
  · intro hnone
    cases hnone
  · intro tx'' htx''
    cases htx''
    refine ⟨view', rfl, ?_, fun _ => hsees⟩
    intro htrue
    rw [haborted] at htrue
    cases htrue
  · intro tx'' key htx'' hholds
    cases htx''
    rcases hlocks key hholds with hold | hfree
    · exact h.free htx hold
    · exact hfree

variable [DecidableEq K]

/-- The key is locked. -/
def LockTx.lock (tx : LockTx K V) (key : K) : LockTx K V :=
  { tx with holds := Function.update tx.holds key true }

/-- The row is written, and its key locked. -/
def LockTx.write (tx : LockTx K V) (key : K) (value : V) : LockTx K V :=
  { tx.lock key with pending := Function.update tx.pending key (some value) }

inductive LockStep : LockState ι K V → ι × Action K V → LockState ι K V → Prop where
  | begins {s : LockState ι K V} {i : ι} : s.txs i = none →
      LockStep s (i, .begins) (s.set i (some .fresh))
  | refuses {s : LockState ι K V} {i : ι} : s.txs i = none → LockStep s (i, .refuses) s
  | findsOwn {s : LockState ι K V} {i : ι} {tx : LockTx K V} {key : K} (value : V) :
      s.txs i = some tx → tx.aborted = false → tx.pending key = some value →
      LockStep s (i, .finds key (some value)) s
  | findsNone {s : LockState ι K V} {i : ι} {tx : LockTx K V} {key : K} :
      s.txs i = some tx → tx.aborted = false → tx.pending key = none → s.committed key = none →
      LockStep s (i, .finds key none) s
  | finds {s : LockState ι K V} {i : ι} {tx : LockTx K V} {key : K} (value : V) :
      s.txs i = some tx → tx.aborted = false → tx.pending key = none →
      s.committed key = some value → s.Free i key →
      LockStep s (i, .finds key (some value)) (s.set i (some (tx.lock key)))
  | inserts {s : LockState ι K V} {i : ι} {tx : LockTx K V} {key : K} (value : V) :
      s.txs i = some tx → tx.aborted = false → tx.pending key = none → s.committed key = none →
      s.Free i key → LockStep s (i, .inserts key value) (s.set i (some (tx.write key value)))
  | updates {s : LockState ι K V} {i : ι} {tx : LockTx K V} {key : K} (value : V) :
      s.txs i = some tx → tx.aborted = false → overlay tx.pending s.committed key ≠ none →
      s.Free i key → LockStep s (i, .updates key value) (s.set i (some (tx.write key value)))
  | fails {s : LockState ι K V} {i : ι} {tx : LockTx K V} (holds : K → Bool) :
      s.txs i = some tx → (∀ key, holds key = true → tx.holds key = true) →
      LockStep s (i, .fails) (s.set i (some ⟨tx.pending, holds, true⟩))
  | lands {s : LockState ι K V} {i : ι} {tx : LockTx K V} :
      s.txs i = some tx → tx.aborted = false → LockStep s (i, .lands) (s.land i tx)
  | commitsNothing {s : LockState ι K V} {i : ι} {tx : LockTx K V} :
      s.txs i = some tx → tx.aborted = true → LockStep s (i, .commitsNothing) (s.set i none)
  | abandons {s : LockState ι K V} {i : ι} {tx : LockTx K V} : s.txs i = some tx →
      LockStep s (i, .abandons) (s.set i none)

/-- The store with locks on its rows. -/
def rowLocks : Store ι K V where
  State := LockState ι K V
  start table := ⟨table, fun _ => none⟩
  committed := LockState.committed
  step := LockStep

/-- A lookup of a row that is the transaction's own says nothing new. -/
theorem LockTx.Sees.findsOwn {tx : LockTx K V} {view : View K V} {committed : K → Option V}
    {key : K} (h : tx.Sees view committed) (row : Option V) (hown : tx.pending key ≠ none) :
    tx.Sees (view.find key row) committed := by
  have hseen : (view.find key row).seen = view.seen := by
    rw [← h.pending] at hown
    exact if_neg hown
  refine ⟨h.pending, h.locked, ?_, ?_⟩
  · rw [hseen]
    exact h.found
  · rw [hseen]
    exact h.absent

theorem LockTx.Sees.findsNone {tx : LockTx K V} {view : View K V} {committed : K → Option V}
    {key : K} (h : tx.Sees view committed) (hown : tx.pending key = none) :
    tx.Sees (view.find key none) committed := by
  have hseen : (view.find key none).seen = Function.update view.seen key (some none) := by
    rw [← h.pending] at hown
    exact if_pos hown
  refine ⟨h.pending, h.locked, ?_, ?_⟩
  · intro key' value hkey'
    rw [hseen] at hkey'
    by_cases heq : key' = key
    · subst heq
      rw [Function.update_self] at hkey'
      cases hkey'
    · rw [Function.update_of_ne heq] at hkey'
      exact h.found key' value hkey'
  · intro key' hkey' hpending
    have heq : key' ≠ key := by
      intro heq
      subst heq
      exact hpending hown
    rw [hseen, Function.update_of_ne heq] at hkey'
    exact h.absent key' hkey' hpending

theorem LockTx.Sees.finds {tx : LockTx K V} {view : View K V} {committed : K → Option V}
    {key : K} {value : V} (h : tx.Sees view committed) (hown : tx.pending key = none)
    (hrow : committed key = some value) :
    (tx.lock key).Sees (view.find key (some value)) committed := by
  have hseen : (view.find key (some value)).seen =
      Function.update view.seen key (some (some value)) := by
    rw [← h.pending] at hown
    exact if_pos hown
  refine ⟨h.pending, ?_, ?_, ?_⟩
  · intro key' hpending
    by_cases heq : key' = key
    · subst heq
      exact Function.update_self ..
    · show Function.update tx.holds key true key' = true
      rw [Function.update_of_ne heq]
      exact h.locked key' hpending
  · intro key' value' hkey'
    rw [hseen] at hkey'
    show Function.update tx.holds key true key' = true ∧ _
    by_cases heq : key' = key
    · subst heq
      rw [Function.update_self] at hkey'
      cases hkey'
      exact ⟨Function.update_self .., hrow⟩
    · rw [Function.update_of_ne heq] at hkey' ⊢
      exact h.found key' value' hkey'
  · intro key' hkey' hpending
    have heq : key' ≠ key := by
      intro heq
      subst heq
      exact hpending hown
    rw [hseen, Function.update_of_ne heq] at hkey'
    exact h.absent key' hkey' hpending

/-- A row is written; what was told of it stays, or is that there is none. -/
theorem LockTx.Sees.writes {tx : LockTx K V} {view view' : View K V} {committed : K → Option V}
    {key : K} {value : V} (h : tx.Sees view committed)
    (hpending : view'.pending = Function.update view.pending key (some value))
    (hother : ∀ key', key' ≠ key → view'.seen key' = view.seen key')
    (hfound : ∀ value', view'.seen key = some (some value') →
      view.seen key = some (some value'))
    (habsent : view'.seen key = some none → committed key = none) :
    (tx.write key value).Sees view' committed := by
  refine ⟨?_, ?_, ?_, ?_⟩
  · rw [hpending, h.pending]
    rfl
  · intro key' hkey'
    show Function.update tx.holds key true key' = true
    by_cases heq : key' = key
    · subst heq
      exact Function.update_self ..
    · rw [Function.update_of_ne heq]
      apply h.locked
      intro hnone
      apply hkey'
      show Function.update tx.pending key (some value) key' = none
      rw [Function.update_of_ne heq]
      exact hnone
  · intro key' value' hkey'
    show Function.update tx.holds key true key' = true ∧ _
    by_cases heq : key' = key
    · subst heq
      exact ⟨Function.update_self .., (h.found key' value' (hfound value' hkey')).2⟩
    · rw [Function.update_of_ne heq]
      rw [hother key' heq] at hkey'
      exact h.found key' value' hkey'
  · intro key' hkey' hown
    by_cases heq : key' = key
    · subst heq
      exact habsent hkey'
    · rw [hother key' heq] at hkey'
      apply h.absent key' hkey'
      intro hnone
      apply hown
      show Function.update tx.pending key (some value) key' = none
      rw [Function.update_of_ne heq]
      exact hnone

theorem LockTx.Sees.inserts {tx : LockTx K V} {view : View K V} {committed : K → Option V}
    {key : K} (h : tx.Sees view committed) (value : V) (hrow : committed key = none) :
    (tx.write key value).Sees (view.insert key value) committed := by
  apply h.writes rfl
  · intro key' hne
    exact Function.update_of_ne hne ..
  · intro value' hseen
    simp only [View.insert, Function.update_self] at hseen
    cases hseen
  · intro _
    exact hrow

theorem LockTx.Sees.updates {tx : LockTx K V} {view : View K V} {committed : K → Option V}
    (h : tx.Sees view committed) (key : K) (value : V) :
    (tx.write key value).Sees (view.update key value) committed := by
  apply h.writes rfl
  · intro key' hne
    exact Function.update_of_ne hne ..
  · intro value' hseen
    simp only [View.update, Function.update_self] at hseen
    exact (Option.filter_eq_some_iff.mp hseen).1
  · intro hseen
    simp only [View.update, Function.update_self] at hseen
    cases (Option.filter_eq_some_iff.mp hseen).2

/-- The locks after one more. -/
theorem LockTx.holds_lock {tx : LockTx K V} {key key' : K} {P : K → Prop} (hP : P key)
    (h : (tx.lock key).holds key' = true) : tx.holds key' = true ∨ P key' := by
  by_cases heq : key' = key
  · subst heq
    exact Or.inr hP
  · simp only [LockTx.lock, Function.update_of_ne heq] at h
    exact Or.inl h

/-- Every step can be followed. -/
theorem LockSim.step {s s' : LockState ι K V} {t : Ledger ι K V} {label : ι × Action K V}
    (h : LockSim s t) (hstep : LockStep s label s') :
    ∃ t', ValidatedStep t label t' ∧ LockSim s' t' := by
  cases hstep with
  | @begins i hnone =>
    refine ⟨_, .begins (h.closed i hnone), ?_⟩
    apply h.set
    · intro hsome
      cases hsome
    · intro tx htx
      cases htx
      refine ⟨_, rfl, ?_, fun _ => .fresh s.committed⟩
      intro htrue
      cases htrue
    · intro tx key htx hholds
      cases htx
      cases hholds
  | @refuses i hnone => exact ⟨t, .refuses (h.closed i hnone), h⟩
  | @findsOwn i tx key value htx hnot hown =>
    obtain ⟨view, hview, hsees⟩ := h.sees htx hnot
    refine ⟨_, .finds key (some value) hview ?_, ?_⟩
    · intro huntouched
      have htouched := view.touched_of_pending key
      rw [hsees.pending, hown, huntouched] at htouched
      cases htouched (Option.some_ne_none value)
    · rw [← LockState.set_self htx]
      apply h.statement htx (hsees.findsOwn (some value) _) hnot (fun _ => Or.inl)
      rw [hown]
      exact Option.some_ne_none value
  | @findsNone i tx key htx hnot hown hrow =>
    obtain ⟨view, hview, hsees⟩ := h.sees htx hnot
    refine ⟨_, .finds key none hview ?_, ?_⟩
    · intro _
      rw [h.committed, hrow]
    · rw [← LockState.set_self htx]
      exact h.statement htx (hsees.findsNone hown) hnot (fun _ => Or.inl)
  | @finds i tx key value htx hnot hown hrow hfree =>
    obtain ⟨view, hview, hsees⟩ := h.sees htx hnot
    refine ⟨_, .finds key (some value) hview ?_, ?_⟩
    · intro _
      rw [h.committed, hrow]
    · exact h.statement htx (hsees.finds hown hrow) hnot (fun _ => LockTx.holds_lock hfree)
  | @inserts i tx key value htx hnot hown hrow hfree =>
    obtain ⟨view, hview, hsees⟩ := h.sees htx hnot
    exact ⟨_, .inserts key value hview,
      h.statement htx (hsees.inserts value hrow) hnot (fun _ => LockTx.holds_lock hfree)⟩
  | @updates i tx key value htx hnot hrow hfree =>
    obtain ⟨view, hview, hsees⟩ := h.sees htx hnot
    exact ⟨_, .updates key value hview,
      h.statement htx (hsees.updates key value) hnot (fun _ => LockTx.holds_lock hfree)⟩
  | @fails i tx holds htx hholds =>
    obtain ⟨view, hview, _⟩ := h.opened i tx htx
    refine ⟨_, .fails hview, ?_⟩
    apply h.set
    · intro hnone
      cases hnone
    · intro tx' htx'
      cases htx'
      refine ⟨_, rfl, fun _ => rfl, ?_⟩
      intro hfalse
      cases hfalse
    · intro tx' key htx' hkey
      cases htx'
      exact h.free htx (hholds key hkey)
  | @lands i tx htx hnot =>
    obtain ⟨view, hview, hsees⟩ := h.sees htx hnot
    refine ⟨_, .lands hview ?_, h.land htx hsees⟩
    rw [h.committed]
    exact hsees.valid
  | @commitsNothing i tx htx haborted =>
    obtain ⟨view, hview, hfailed, _⟩ := h.opened i tx htx
    exact ⟨_, .commitsNothing hview (hfailed haborted), h.closes i⟩
  | @abandons i tx htx =>
    obtain ⟨view, hview, _⟩ := h.opened i tx htx
    exact ⟨_, .abandons hview, h.closes i⟩

/-- With locks on its rows a store lets nothing land that is not valid. -/
theorem rowLocks_refines : (rowLocks : Store ι K V).Refines validated LockSim where
  start table := by
    refine ⟨rfl, fun _ _ => rfl, ?_, ?_⟩
    · intro i tx htx
      cases htx
    · intro i j tx tx' key htx
      cases htx
  committed h := h.committed
  step h hstep := h.step hstep

end QuizArena.Lib
