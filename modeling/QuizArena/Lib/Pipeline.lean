import Mathlib.Data.List.Basic
import Mathlib.Logic.Function.Basic
import QuizArena.Lib.Transition

/-!
# Pipelines that feed on themselves

What is fed to a pipeline waits on each channel that accepts it, and is delivered from there in
batches. A delivery can make noise, and the noise is fed to the pipeline as everything else is.
A pipeline is quiet if its deliveries never outnumber what it was fed from outside; that is so
exactly when no channel accepts any noise.
-/

namespace QuizArena.Lib

/-- What the channels accept, and what a delivery can make. -/
structure Pipeline (Channel Item : Type) where
  accepts : Channel → Item → Bool
  noise : Item → Prop

namespace Pipeline

variable {Channel Item : Type}

/-- Where a pipeline stands: what it was fed from outside, what waits and what was delivered. -/
structure State (Channel Item : Type) where
  fed : List Item
  waiting : Channel → List Item
  delivered : Channel → List Item

/-- The empty pipeline. -/
def State.empty : State Channel Item := ⟨[], fun _ => [], fun _ => []⟩

inductive Label (Channel Item : Type) where
  | feeds (item : Item)
  | delivers (channel : Channel) (noise : List Item)
  | drops (channel : Channel)

def Label.isFeed : Label Channel Item → Bool
  | .feeds _ => true
  | .delivers _ _ | .drops _ => false

/-- The items are offered to every channel. -/
def offer (P : Pipeline Channel Item) (waiting : Channel → List Item) (items : List Item) :
    Channel → List Item :=
  fun channel => waiting channel ++ items.filter (P.accepts channel)

/-- No channel accepts what a delivery makes. -/
def Deaf (P : Pipeline Channel Item) : Prop :=
  ∀ item, P.noise item → ∀ channel, P.accepts channel item = false

/-- To a deaf pipeline noise is offered in vain. -/
theorem Deaf.offer {P : Pipeline Channel Item} (h : P.Deaf) {waiting : Channel → List Item}
    {noise : List Item} (hnoise : ∀ item ∈ noise, P.noise item) :
    P.offer waiting noise = waiting := by
  funext channel
  show waiting channel ++ noise.filter (P.accepts channel) = waiting channel
  rw [List.filter_eq_nil_iff.mpr, List.append_nil]
  intro item hitem
  rw [h item (hnoise item hitem) channel]
  simp

variable [DecidableEq Channel]

def Label.deliversFrom (channel : Channel) : Label Channel Item → Bool
  | .delivers channel' _ => channel' = channel
  | .feeds _ | .drops _ => false

/-- A batch leaves its channel, or an item is lost on it. -/
inductive Step (P : Pipeline Channel Item) :
    State Channel Item → Label Channel Item → State Channel Item → Prop where
  | feeds {s : State Channel Item} (item : Item) :
      Step P s (.feeds item) { s with
        fed := s.fed ++ [item]
        waiting := P.offer s.waiting [item] }
  | delivers {s : State Channel Item} {channel : Channel} {batch rest noise : List Item} :
      s.waiting channel = batch ++ rest → batch ≠ [] → (∀ item ∈ noise, P.noise item) →
      Step P s (.delivers channel noise) { s with
        waiting := P.offer (Function.update s.waiting channel rest) noise
        delivered := Function.update s.delivered channel (s.delivered channel ++ batch) }
  | drops {s : State Channel Item} {channel : Channel} {before after : List Item} {item : Item} :
      s.waiting channel = before ++ item :: after →
      Step P s (.drops channel) { s with
        waiting := Function.update s.waiting channel (before ++ after) }

/-- The runs of a pipeline. -/
abbrev Run (P : Pipeline Channel Item) (labels : List (Label Channel Item))
    (s : State Channel Item) : Prop :=
  Trace (Step P) .empty labels s

/-- In no run a channel delivers more often than the pipeline was fed. -/
def Quiet (P : Pipeline Channel Item) : Prop :=
  ∀ labels s, Run P labels s → ∀ channel,
    labels.countP (Label.deliversFrom channel) ≤ labels.countP Label.isFeed

variable {P : Pipeline Channel Item} {s s' : State Channel Item}
  {label : Label Channel Item} {labels : List (Label Channel Item)}

/-- What holds of a deaf pipeline: it has delivered, in order and at most once each, items that
    it was fed from outside and that the channel accepts. -/
structure Fair (P : Pipeline Channel Item) (labels : List (Label Channel Item))
    (s : State Channel Item) : Prop where
  feeds : s.fed.length = labels.countP Label.isFeed
  passes : ∀ channel,
    (s.delivered channel ++ s.waiting channel).Sublist (s.fed.filter (P.accepts channel))
  delivers : ∀ channel,
    labels.countP (Label.deliversFrom channel) ≤ (s.delivered channel).length

theorem Fair.empty : Fair P [] .empty :=
  ⟨rfl, fun _ => List.nil_sublist _, fun _ => Nat.le_refl 0⟩

theorem Fair.step (hdeaf : P.Deaf) (h : Fair P labels s) (hstep : Step P s label s') :
    Fair P (labels ++ [label]) s' := by
  obtain ⟨hfeeds, hpasses, hdelivers⟩ := h
  cases hstep with
  | feeds item =>
    refine ⟨?_, fun channel => ?_, fun channel => ?_⟩
    · rw [List.countP_append, ← hfeeds]
      exact List.length_append
    · show (s.delivered channel ++ (s.waiting channel ++ [item].filter _)).Sublist
        ((s.fed ++ [item]).filter (P.accepts channel))
      rw [← List.append_assoc, List.filter_append]
      exact (hpasses channel).append_right _
    · rw [List.countP_append]
      exact hdelivers channel
  | @delivers channel batch rest noise hwaiting hbatch hnoise =>
    rw [hdeaf.offer hnoise]
    refine ⟨?_, fun channel' => ?_, fun channel' => ?_⟩
    · rw [List.countP_append, ← hfeeds]
      rfl
    · have hpasses' := hpasses channel'
      by_cases hchannel : channel' = channel
      · subst hchannel
        rw [hwaiting, ← List.append_assoc] at hpasses'
        simpa only [Function.update_self] using hpasses'
      · simpa only [Function.update_of_ne hchannel] using hpasses'
    · have hdelivers' := hdelivers channel'
      rw [List.countP_append]
      by_cases hchannel : channel' = channel
      · subst hchannel
        have hpos : 0 < batch.length := List.length_pos_iff.mpr hbatch
        simp only [Function.update_self, List.length_append]
        simp only [List.countP_singleton, Label.deliversFrom, decide_true, if_true]
        omega
      · simp only [Function.update_of_ne hchannel]
        simp only [List.countP_singleton, Label.deliversFrom, Ne.symm hchannel, decide_false]
        exact hdelivers'
  | @drops channel before after item hwaiting =>
    refine ⟨?_, fun channel' => ?_, fun channel' => ?_⟩
    · rw [List.countP_append, ← hfeeds]
      rfl
    · by_cases hchannel : channel' = channel
      · subst hchannel
        have hless : (before ++ after).Sublist (before ++ item :: after) :=
          (List.sublist_cons_self item after).append_left before
        simp only [Function.update_self]
        rw [← hwaiting] at hless
        exact (hless.append_left _).trans (hpasses channel')
      · simpa only [Function.update_of_ne hchannel] using hpasses channel'
    · rw [List.countP_append]
      exact hdelivers channel'

/-- Every run of a deaf pipeline is fair. -/
theorem Deaf.fair (hdeaf : P.Deaf) (h : Run P labels s) : Fair P labels s :=
  Trace.history (fun hfair hstep => hfair.step hdeaf hstep) [] h .empty

/-- A channel that has delivered has something to show for each time. -/
theorem Fair.quiet (h : Fair P labels s) (channel : Channel) :
    labels.countP (Label.deliversFrom channel) ≤ labels.countP Label.isFeed := by
  have hlength := (h.passes channel).length_le
  have hfilter := List.length_filter_le (P.accepts channel) s.fed
  have hdelivers := h.delivers channel
  rw [List.length_append] at hlength
  rw [← h.feeds]
  omega

/-- Noise that a channel accepts is fed once, and delivered as often as one likes. -/
theorem exists_run_of_accepts {channel : Channel} {item : Item} (hnoise : P.noise item)
    (haccepts : P.accepts channel item = true) (n : Nat) :
    ∃ labels s, Run P labels s ∧ labels.countP Label.isFeed = 1 ∧
      labels.countP (Label.deliversFrom channel) = n ∧ s.delivered channel = List.replicate n item ∧
      s.waiting channel = [item] := by
  induction n with
  | zero =>
    refine ⟨_, _, .cons (.feeds item) (.nil _), rfl, rfl, rfl, ?_⟩
    show [] ++ [item].filter (P.accepts channel) = [item]
    rw [List.filter_cons_of_pos haccepts]
    rfl
  | succ n ih =>
    obtain ⟨labels, s, hrun, hfeeds, hdelivers, hdelivered, hwaiting⟩ := ih
    have hwaiting' : s.waiting channel = [item] ++ [] := hwaiting
    have hstep : Step P s (.delivers channel [item]) _ :=
      .delivers hwaiting' (List.cons_ne_nil _ _) fun other hother => by
        rw [List.mem_singleton.mp hother]
        exact hnoise
    refine ⟨_, _, Trace.append_iff.mpr ⟨s, hrun, .cons hstep (.nil _)⟩, ?_, ?_, ?_, ?_⟩
    · rw [List.countP_append, hfeeds]
      rfl
    · rw [List.countP_append, hdelivers]
      simp [Label.deliversFrom]
    · simp only [Function.update_self]
      rw [hdelivered, List.replicate_succ']
    · show Function.update s.waiting channel [] channel ++ [item].filter (P.accepts channel) = _
      rw [Function.update_self, List.filter_cons_of_pos haccepts]
      rfl

/-- A pipeline is quiet exactly if it is deaf. -/
theorem quiet_iff : P.Quiet ↔ P.Deaf := by
  constructor
  · intro hquiet item hnoise channel
    cases haccepts : P.accepts channel item with
    | false => rfl
    | true =>
      obtain ⟨labels, s, hrun, hfeeds, hdelivers, _⟩ :=
        exists_run_of_accepts (P := P) hnoise haccepts 2
      have hle := hquiet labels s hrun channel
      omega
  · intro hdeaf labels s hrun channel
    exact (hdeaf.fair hrun).quiet channel

end Pipeline

end QuizArena.Lib
