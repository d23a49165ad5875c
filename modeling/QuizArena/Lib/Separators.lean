import Mathlib.Data.List.Basic
import Mathlib.Data.List.DropRight

/-!
# Texts and their separators

A list is cut before its first separator, split at it, or trimmed of what it ends
in. Each operation is described by what its parts look like, and the parts of a
text are unique: a list has one cut, and what follows its last separator can be read
off it.
-/

namespace QuizArena.Lib

variable {α : Type}

/-- The two parts of a list, of which the second one starts at the first separator. -/
def cutAtFirst (isSep : α → Bool) (l : List α) : List α × List α :=
  l.splitAt (l.findIdx isSep)

/-- The parts of a cut: no separator is in the first one, and the second one is empty
    or starts with one. -/
structure IsCut (isSep : α → Bool) (l before after : List α) : Prop where
  append : before ++ after = l
  before_plain : ∀ a ∈ before, isSep a = false
  after_head : ∀ a ∈ after.head?, isSep a = true

theorem isCut_cons_of_sep {isSep : α → Bool} {a : α} (h : isSep a = true) (l : List α) :
    IsCut isSep (a :: l) [] (a :: l) where
  append := rfl
  before_plain _ hb := absurd hb List.not_mem_nil
  after_head := by
    intro b hb
    cases hb
    exact h

theorem IsCut.cons {isSep : α → Bool} {l before after : List α} (h : IsCut isSep l before after)
    {a : α} (ha : isSep a = false) : IsCut isSep (a :: l) (a :: before) after where
  append := congrArg (a :: ·) h.append
  before_plain := List.forall_mem_cons.mpr ⟨ha, h.before_plain⟩
  after_head := h.after_head

theorem isCut_cutAtFirst (isSep : α → Bool) (l : List α) :
    IsCut isSep l (cutAtFirst isSep l).1 (cutAtFirst isSep l).2 := by
  unfold cutAtFirst
  rw [List.splitAt_eq]
  induction l with
  | nil => exact ⟨rfl, by simp, by simp⟩
  | cons a l ih =>
    rw [List.findIdx_cons]
    cases h : isSep a with
    | true => exact isCut_cons_of_sep h l
    | false => exact ih.cons h

/-- A list has one cut. -/
theorem IsCut.unique {isSep : α → Bool} {l before after before' after' : List α}
    (h : IsCut isSep l before after) (h' : IsCut isSep l before' after') :
    before = before' ∧ after = after' := by
  induction before generalizing l before' with
  | nil =>
    have hl : after = l := h.append
    cases before' with
    | nil => exact ⟨rfl, hl.trans h'.append.symm⟩
    | cons a before' =>
      have hsep : isSep a = true := by
        apply h.after_head
        rw [hl, ← h'.append]
        rfl
      rw [h'.before_plain a List.mem_cons_self] at hsep
      cases hsep
  | cons a before ih =>
    have hplain := h.before_plain a List.mem_cons_self
    cases before' with
    | nil =>
      have hl : after' = l := h'.append
      have hsep : isSep a = true := by
        apply h'.after_head
        rw [hl, ← h.append]
        rfl
      rw [hplain] at hsep
      cases hsep
    | cons a' before' =>
      obtain ⟨rfl, hrest⟩ := List.cons.inj (h.append.trans h'.append.symm)
      have htail : IsCut isSep (before ++ after) before after :=
        ⟨rfl, fun b hb => h.before_plain b (List.mem_cons_of_mem _ hb), h.after_head⟩
      have htail' : IsCut isSep (before ++ after) before' after' :=
        ⟨hrest.symm, fun b hb => h'.before_plain b (List.mem_cons_of_mem _ hb), h'.after_head⟩
      obtain ⟨rfl, rfl⟩ := ih htail htail'
      exact ⟨rfl, rfl⟩

theorem cutAtFirst_eq_iff {isSep : α → Bool} {l before after : List α} :
    cutAtFirst isSep l = (before, after) ↔ IsCut isSep l before after := by
  have hcut := isCut_cutAtFirst isSep l
  constructor
  · intro h
    rw [h] at hcut
    exact hcut
  · intro h
    obtain ⟨hbefore, hafter⟩ := hcut.unique h
    exact Prod.ext hbefore hafter

/-- The parts of a list before and after its first separator, when it has one. -/
def splitOnce [BEq α] (sep : α) (l : List α) : Option (List α × List α) :=
  match cutAtFirst (· == sep) l with
  | (before, _ :: after) => some (before, after)
  | (_, []) => none

/-- Cutting before the first of one separator. -/
theorem isCut_of_notMem [BEq α] [LawfulBEq α] {sep : α} {before : List α} (h : sep ∉ before)
    (after : List α) : IsCut (· == sep) (before ++ sep :: after) before (sep :: after) where
  append := rfl
  before_plain := by
    intro a ha
    rw [beq_eq_false_iff_ne]
    rintro rfl
    exact h ha
  after_head := by simp

theorem splitOnce_eq_some_iff [BEq α] [LawfulBEq α] {sep : α} {l before after : List α} :
    splitOnce sep l = some (before, after) ↔ l = before ++ sep :: after ∧ sep ∉ before := by
  unfold splitOnce
  constructor
  · intro h
    have hcut := isCut_cutAtFirst (· == sep) l
    split at h
    · rename_i before' a after' hparts
      cases h
      rw [hparts] at hcut
      have ha : a = sep := beq_iff_eq.mp (hcut.after_head a rfl)
      subst ha
      refine ⟨hcut.append.symm, fun hmem => ?_⟩
      have hplain := hcut.before_plain a hmem
      rw [beq_self_eq_true] at hplain
      cases hplain
    · cases h
  · rintro ⟨rfl, hmem⟩
    rw [cutAtFirst_eq_iff.mpr (isCut_of_notMem hmem after)]

/-- What follows the last separator, and what comes before it, can be read off a
    list. -/
theorem append_sep_inj [DecidableEq α] {sep : α} {before before' after after' : List α}
    (h : sep ∉ after) (h' : sep ∉ after') :
    before ++ sep :: after = before' ++ sep :: after' ↔ before = before' ∧ after = after' := by
  constructor
  · intro heq
    -- seen from the end the separator is the first one
    have hreverse := congrArg List.reverse heq
    simp only [List.reverse_append, List.reverse_cons, List.append_assoc,
      List.singleton_append] at hreverse
    have hcut := isCut_of_notMem (fun hmem => h (List.mem_reverse.mp hmem)) before.reverse
    have hcut' := isCut_of_notMem (fun hmem => h' (List.mem_reverse.mp hmem)) before'.reverse
    rw [← hreverse] at hcut'
    obtain ⟨hafter, hbefore⟩ := hcut.unique hcut'
    rw [List.cons.injEq] at hbefore
    exact ⟨List.reverse_inj.mp hbefore.2, List.reverse_inj.mp hafter⟩
  · rintro ⟨rfl, rfl⟩
    rfl

end QuizArena.Lib
