import QuizArena.Kernel.Atomicity
import Mathlib.Data.List.SplitBy

/-!
# Landings

A log of the driver leaves one thing open: whether a commit that failed has taken
effect all the same. A history is a log in which every event says whether it landed,
and the attempts of a history are what lies between one begin and the next.
-/

namespace QuizArena.Kernel

open Lib

variable {W : Signature}

/-- An event of the driver and whether it has made a transaction durable. -/
structure Entry (W : Signature) where
  event : Event (Tx W)
  landed : Bool

/-- The events that can land: a commit that succeeded, or failed for a reason other
    than contention. -/
def mayLand : Event (Tx W) → Bool
  | ⟨.commit, .ok _⟩ => true
  | ⟨.commit, .error source⟩ => !contended source
  | _ => false

/-- Whether the event is a commit that succeeded. -/
def commitSucceeds : Event (Tx W) → Bool
  | ⟨.commit, .ok _⟩ => true
  | _ => false

/-- Whether the event begins an attempt. -/
def isBegin : Event (Tx W) → Bool
  | ⟨.begin, _⟩ => true
  | _ => false

/-- Whether a statement of the transaction has failed, an event later. -/
def failedAfter (failed : Bool) (event : Event (Tx W)) : Bool :=
  !isBegin event && (failed || statementFails event)

/-- The histories a store can produce: nothing lands that cannot, and a commit that
    succeeds has landed unless a statement of its transaction had failed. -/
def Lawful : Bool → List (Entry W) → Prop
  | _, [] => True
  | failed, entry :: rest =>
    (entry.landed = true → mayLand entry.event = true) ∧
      (failed = false → commitSucceeds entry.event = true → entry.landed = true) ∧
      Lawful (failedAfter failed entry.event) rest

instance Lawful.decidable : ∀ (failed : Bool) (history : List (Entry W)),
    Decidable (Lawful failed history)
  | _, [] => isTrue trivial
  | failed, entry :: rest =>
    have := Lawful.decidable (failedAfter failed entry.event) rest
    inferInstanceAs (Decidable (_ ∧ _ ∧ _))

/-- A history, cut before each begin. -/
def attempts (history : List (Entry W)) : List (List (Entry W)) :=
  history.splitBy fun _ entry => !isBegin entry.event

theorem lawful_append {failed : Bool} {history history' : List (Entry W)} :
    Lawful failed (history ++ history') ↔
      Lawful failed history ∧
        Lawful ((history.map Entry.event).foldl failedAfter failed) history' := by
  induction history generalizing failed with
  | nil => simp [Lawful]
  | cons entry history ih => simp [Lawful, ih, and_assoc]

theorem mayLand_of_landed {failed : Bool} {history : List (Entry W)} {entry : Entry W}
    (h : Lawful failed history) (hmem : entry ∈ history) (hlanded : entry.landed = true) :
    mayLand entry.event = true := by
  obtain ⟨before, after, rfl⟩ := List.append_of_mem hmem
  exact (lawful_append.mp h).2.1 hlanded

/-- A history whose log is made up of pieces is made up of pieces itself. -/
theorem history_eq_flatten {history : List (Entry W)} {logs : List (List (Event (Tx W)))}
    {last : List (Event (Tx W))} (h : history.map Entry.event = logs.flatten ++ last) :
    ∃ (pieces : List (List (Entry W))) (rest : List (Entry W)),
      history = pieces.flatten ++ rest ∧ pieces.map (List.map Entry.event) = logs ∧
        rest.map Entry.event = last := by
  induction logs generalizing history with
  | nil => exact ⟨[], history, rfl, rfl, h⟩
  | cons log logs ih =>
    rw [List.flatten_cons, List.append_assoc] at h
    obtain ⟨piece, rest, rfl, rfl, hrest⟩ := List.map_eq_append_iff.mp h
    obtain ⟨pieces, rest, rfl, rfl, rfl⟩ := ih hrest
    exact ⟨piece :: pieces, rest, by simp, rfl, rfl⟩

/-- A begin, and no other after it. -/
def IsAttempt (entries : List (Entry W)) : Prop :=
  ∃ first rest, entries = first :: rest ∧ isBegin first.event = true ∧
    ∀ entry ∈ rest, isBegin entry.event = false

/-- The attempts of a history that was put together from attempts. -/
theorem attempts_flatten {chunks : List (List (Entry W))}
    (h : ∀ chunk ∈ chunks, IsAttempt chunk) : attempts chunks.flatten = chunks := by
  apply List.splitBy_flatten
  · intro hnil
    obtain ⟨first, rest, heq, _⟩ := h [] hnil
    cases heq
  · intro chunk hchunk
    obtain ⟨first, rest, rfl, _, hrest⟩ := h chunk hchunk
    apply List.Pairwise.isChain
    rw [List.pairwise_cons]
    constructor
    · intro entry hentry
      rw [hrest entry hentry]
      rfl
    · apply List.pairwise_of_forall_mem_list
      intro _ _ entry hentry
      rw [hrest entry hentry]
      rfl
  · apply List.Pairwise.isChain
    apply List.pairwise_of_forall_mem_list
    intro chunk hchunk chunk' hchunk'
    obtain ⟨first, rest, rfl, _⟩ := h chunk hchunk
    obtain ⟨first', rest', rfl, hfirst, _⟩ := h chunk' hchunk'
    exact ⟨by simp, by simp, by simp [hfirst]⟩

end QuizArena.Kernel
