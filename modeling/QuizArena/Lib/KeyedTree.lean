import Mathlib.Data.List.Infix
import Mathlib.Data.List.Pairwise

/-!
# Trees addressed by paths of keys

A node of type `V` is a table or a leaf. A table holds a child under some of the
keys of type `K`; a leaf holds none. `KeyedTree` fixes the operations of one
level and their laws, `readPath` and `writePath` follow a path of keys, and
`writeAll` performs a list of writes in order. The laws of `writePath` are the
usual ones of a store: a write is read back, it leaves every incomparable path
alone, and of several writes to one path the last one counts.
-/

namespace QuizArena.Lib

/-- One level of a tree whose tables are addressed by keys. -/
class KeyedTree (K : outParam Type) (V : Type) where
  /-- Whether the node is a table. -/
  IsTable : V → Prop
  decIsTable : DecidablePred IsTable
  /-- The child of a table under a key; a leaf has none. -/
  child : V → K → Option V
  /-- The table with the given child under the key. -/
  put : V → K → V → V
  /-- The table without children. -/
  empty : V
  child_leaf : ∀ {v : V} (k : K), ¬ IsTable v → child v k = none
  child_empty : ∀ k : K, child empty k = none
  isTable_empty : IsTable empty
  isTable_put : ∀ {v : V} (k : K) (c : V), IsTable v → IsTable (put v k c)
  child_put_same : ∀ {v : V} (k : K) (c : V), IsTable v → child (put v k c) k = some c
  child_put_ne : ∀ {v : V} {k k' : K} (c : V), IsTable v → k' ≠ k →
    child (put v k c) k' = child v k'

namespace KeyedTree

variable {K V : Type} [KeyedTree K V]

instance (v : V) : Decidable (IsTable v) := decIsTable v

/-- The node itself when it is a table, and the empty table otherwise. -/
def asTable (v : V) : V := if IsTable v then v else empty

/-- The node at a path. -/
def readPath : V → List K → Option V
  | v, [] => some v
  | v, k :: p => (child v k).bind fun c => readPath c p

/-- The tree with `x` at a path. A leaf in the way becomes a table. -/
def writePath : V → List K → V → V
  | _, [], x => x
  | v, k :: p, x => put (asTable v) k (writePath ((child v k).getD empty) p x)

/-- The writes of a list, the first one first. -/
def writeAll (v : V) (ws : List (List K × V)) : V :=
  ws.foldl (fun v w => writePath v w.1 w.2) v

/-- Two paths neither of which runs through the other. -/
def Incomparable (p q : List K) : Prop := ¬ p <+: q ∧ ¬ q <+: p

theorem Incomparable.symm {p q : List K} (h : Incomparable p q) : Incomparable q p := ⟨h.2, h.1⟩

theorem Incomparable.of_cons {k : K} {p q : List K} (h : Incomparable (k :: p) (k :: q)) :
    Incomparable p q :=
  ⟨fun hp => h.1 (List.cons_prefix_cons.mpr ⟨rfl, hp⟩),
    fun hq => h.2 (List.cons_prefix_cons.mpr ⟨rfl, hq⟩)⟩

theorem isTable_asTable (v : V) : IsTable (asTable v) := by
  unfold asTable
  split
  · assumption
  · exact isTable_empty

theorem asTable_of_isTable {v : V} (h : IsTable v) : asTable v = v := if_pos h

@[simp] theorem child_asTable (v : V) (k : K) : child (asTable v) k = child v k := by
  unfold asTable
  split
  · rfl
  · rename_i h
    rw [child_empty, child_leaf k h]

theorem isTable_of_child {v c : V} {k : K} (h : child v k = some c) : IsTable v := by
  by_contra hv
  rw [child_leaf k hv] at h
  cases h

@[simp] theorem readPath_nil (v : V) : readPath v ([] : List K) = some v := rfl

theorem readPath_cons (v : V) (k : K) (p : List K) :
    readPath v (k :: p) = (child v k).bind fun c => readPath c p := rfl

theorem readPath_append (v : V) (p q : List K) :
    readPath v (p ++ q) = (readPath v p).bind fun c => readPath c q := by
  induction p generalizing v with
  | nil => rfl
  | cons k p ih =>
    rw [List.cons_append, readPath_cons, readPath_cons]
    cases child v k with
    | none => rfl
    | some c => exact ih c

/-- Whatever lies on the way to a node is present too. -/
theorem readPath_along {v : V} {p q : List K} (h : p <+: q) (hq : readPath v q ≠ none) :
    readPath v p ≠ none := by
  obtain ⟨r, rfl⟩ := h
  intro hp
  rw [readPath_append, hp] at hq
  exact hq rfl

/-- A node with something strictly below it is a table. -/
theorem isTable_of_readPath_cons {v w : V} {p q : List K} {k : K}
    (hp : readPath v p = some w) (hq : readPath v (p ++ k :: q) ≠ none) : IsTable w := by
  rw [readPath_append, hp, Option.bind_some, readPath_cons] at hq
  cases hc : child w k with
  | none => rw [hc] at hq; exact absurd rfl hq
  | some c => exact isTable_of_child hc

theorem readPath_empty_cons (k : K) (p : List K) : readPath (empty : V) (k :: p) = none := by
  rw [readPath_cons, child_empty]
  rfl

theorem child_writePath_same (v x : V) (k : K) (p : List K) :
    child (writePath v (k :: p) x) k = some (writePath ((child v k).getD empty) p x) :=
  child_put_same k _ (isTable_asTable v)

theorem child_writePath_ne (v x : V) {k k' : K} (p : List K) (h : k' ≠ k) :
    child (writePath v (k :: p) x) k' = child v k' := by
  rw [writePath, child_put_ne _ (isTable_asTable v) h, child_asTable]

theorem isTable_writePath_cons (v x : V) (k : K) (p : List K) :
    IsTable (writePath v (k :: p) x) :=
  isTable_put k _ (isTable_asTable v)

/-- A write to a path other than the root leaves a table. -/
theorem isTable_writePath {v x : V} {p : List K} (h : p ≠ []) : IsTable (writePath v p x) := by
  cases p with
  | nil => exact absurd rfl h
  | cons k p => exact isTable_writePath_cons v x k p

/-- A write is read back. -/
@[simp] theorem readPath_writePath_same (v x : V) (p : List K) :
    readPath (writePath v p x) p = some x := by
  induction p generalizing v with
  | nil => rfl
  | cons k p ih =>
    rw [readPath_cons, child_writePath_same, Option.bind_some]
    exact ih _

/-- Below the written path stands what the written value holds. -/
theorem readPath_writePath_below (v x : V) (p q : List K) :
    readPath (writePath v p x) (p ++ q) = readPath x q := by
  rw [readPath_append, readPath_writePath_same, Option.bind_some]

/-- A write leaves every incomparable path as it was. -/
theorem readPath_writePath_of_incomparable (v x : V) {p q : List K} (h : Incomparable p q) :
    readPath (writePath v p x) q = readPath v q := by
  induction p generalizing v q with
  | nil => exact absurd q.nil_prefix h.1
  | cons k p ih =>
    cases q with
    | nil => exact absurd (List.nil_prefix) h.2
    | cons k' q =>
      rw [readPath_cons, readPath_cons]
      by_cases hk : k' = k
      · subst hk
        have hpq : Incomparable p q := h.of_cons
        rw [child_writePath_same, Option.bind_some, ih _ hpq]
        cases child v k' with
        | some c => rfl
        | none =>
          -- nothing stood under the key, so nothing was read below it
          cases q with
          | nil => exact absurd List.nil_prefix hpq.2
          | cons k'' q => exact readPath_empty_cons k'' q
      · rw [child_writePath_ne v x p hk]

/-- A write brings into being only what lies on its path or below it. -/
theorem prefix_of_readPath_writePath {v x : V} {p q : List K}
    (h : readPath (writePath v p x) q ≠ none) (hq : readPath v q = none) :
    q <+: p ∨ ∃ r, q = p ++ r ∧ readPath x r ≠ none := by
  by_cases hqp : q <+: p
  · exact Or.inl hqp
  · by_cases hpq : p <+: q
    · obtain ⟨r, rfl⟩ := hpq
      rw [readPath_writePath_below] at h
      exact Or.inr ⟨r, rfl, h⟩
    · rw [readPath_writePath_of_incomparable v x ⟨hpq, hqp⟩] at h
      exact absurd hq h

@[simp] theorem writeAll_cons (v : V) (w : List K × V) (ws : List (List K × V)) :
    writeAll v (w :: ws) = writeAll (writePath v w.1 w.2) ws := rfl

theorem isTable_writeAll {v : V} {ws : List (List K × V)} (hv : IsTable v)
    (hws : ∀ w ∈ ws, w.1 ≠ []) : IsTable (writeAll v ws) := by
  induction ws generalizing v with
  | nil => exact hv
  | cons w ws ih =>
    exact ih (isTable_writePath (hws w (by simp))) fun w' h => hws w' (by simp [h])

/-- A list of writes leaves alone what is incomparable to all their paths. -/
theorem readPath_writeAll_of_incomparable (v : V) {ws : List (List K × V)} {q : List K}
    (h : ∀ w ∈ ws, Incomparable w.1 q) : readPath (writeAll v ws) q = readPath v q := by
  induction ws generalizing v with
  | nil => rfl
  | cons w ws ih =>
    rw [writeAll_cons, ih _ fun w' hw' => h w' (by simp [hw']),
      readPath_writePath_of_incomparable v _ (h w (by simp))]

/-- Of the writes to one path the last one is read back, and without one the
    path stands as it was, when every other write is incomparable to it. -/
theorem readPath_writeAll [DecidableEq K] (v : V) {ws : List (List K × V)} {p : List K}
    (h : ∀ w ∈ ws, w.1 = p ∨ Incomparable w.1 p) :
    readPath (writeAll v ws) p =
      ((ws.filter fun w => w.1 = p).getLast?.map Prod.snd).or (readPath v p) := by
  induction ws generalizing v with
  | nil => rfl
  | cons w ws ih =>
    rw [writeAll_cons, ih _ fun w' hw' => h w' (by simp [hw'])]
    rcases h w (by simp) with heq | hinc
    · rw [List.filter_cons_of_pos (by simpa using heq), List.getLast?_cons]
      subst heq
      cases (ws.filter fun w' => w'.1 = w.1).getLast? with
      | none => simp
      | some w' => simp
    · have hne : ¬ w.1 = p := fun heq => hinc.1 (heq ▸ List.prefix_refl _)
      rw [List.filter_cons_of_neg (by simpa using hne),
        readPath_writePath_of_incomparable v _ hinc]

/-- A list of writes brings into being only what lies on one of its paths or
below one. -/
theorem prefix_of_readPath_writeAll {v : V} {ws : List (List K × V)} {q : List K}
    (h : readPath (writeAll v ws) q ≠ none) (hq : readPath v q = none) :
    ∃ w ∈ ws, q <+: w.1 ∨ ∃ r, q = w.1 ++ r ∧ readPath w.2 r ≠ none := by
  induction ws generalizing v with
  | nil => exact absurd hq h
  | cons w ws ih =>
    rw [writeAll_cons] at h
    by_cases hw : readPath (writePath v w.1 w.2) q = none
    · obtain ⟨w', hmem, hw'⟩ := ih h hw
      exact ⟨w', by simp [hmem], hw'⟩
    · exact ⟨w, by simp, prefix_of_readPath_writePath hw hq⟩

/-! ## Writes that commute -/

/-- A tree in which a table is known by its children. -/
class Extensional (K : outParam Type) (V : Type) [KeyedTree K V] : Prop where
  ext : ∀ {v v' : V}, IsTable v → IsTable v' → (∀ k : K, child v k = child v' k) → v = v'

variable [Extensional K V]

/-- Writes to incomparable paths do not depend on their order. -/
theorem writePath_comm (v x y : V) {p q : List K} (h : Incomparable p q) :
    writePath (writePath v p x) q y = writePath (writePath v q y) p x := by
  induction p generalizing v q with
  | nil => exact absurd q.nil_prefix h.1
  | cons k p ih =>
    cases q with
    | nil => exact absurd (List.nil_prefix) h.2
    | cons k' q =>
      refine Extensional.ext (isTable_writePath_cons _ _ _ _) (isTable_writePath_cons _ _ _ _) ?_
      intro key
      by_cases hk : k = k'
      · subst hk
        by_cases hkey : key = k
        · subst hkey
          rw [child_writePath_same, child_writePath_same, child_writePath_same,
            child_writePath_same, Option.getD_some, Option.getD_some, ih _ h.of_cons]
        · rw [child_writePath_ne _ _ _ hkey, child_writePath_ne _ _ _ hkey,
            child_writePath_ne _ _ _ hkey, child_writePath_ne _ _ _ hkey]
      · -- the two writes go through different children
        by_cases hkey : key = k
        · subst hkey
          rw [child_writePath_ne _ _ _ hk, child_writePath_same, child_writePath_same,
            child_writePath_ne _ _ _ hk]
        · rw [child_writePath_ne (writePath v (k' :: q) y) x p hkey]
          by_cases hkey' : key = k'
          · subst hkey'
            rw [child_writePath_same, child_writePath_same, child_writePath_ne _ _ _ hkey]
          · rw [child_writePath_ne _ _ _ hkey', child_writePath_ne _ _ _ hkey',
              child_writePath_ne _ _ _ hkey]

/-- Writes of which no two run through one another come to the same in every order. -/
theorem writeAll_perm (v : V) {ws ws' : List (List K × V)} (hperm : ws.Perm ws')
    (h : ws.Pairwise fun w w' => Incomparable w.1 w'.1) : writeAll v ws = writeAll v ws' := by
  have : Std.Symm fun w w' : List K × V => Incomparable w.1 w'.1 := ⟨fun _ _ h => h.symm⟩
  apply hperm.foldl_eq'
  intro w hw w' hw' v
  by_cases heq : w = w'
  · rw [heq]
  · exact writePath_comm v w.2 w'.2 (h.forall hw hw' heq)

end KeyedTree

end QuizArena.Lib
