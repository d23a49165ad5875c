import Mathlib.Data.List.Basic

/-!
# Labelled transitions

A transition system is a relation between a state, a label and the next state;
`Trace` follows it along a list of labels. An invariant that every step keeps holds at
the end of every trace, and a system whose every step another one can follow, under a
relation of their states, has the other one's traces.
-/

namespace QuizArena.Lib

variable {State State' Label : Type}

/-- The states a list of labels leads to. -/
inductive Trace (step : State → Label → State → Prop) : State → List Label → State → Prop where
  | nil (s : State) : Trace step s [] s
  | cons {s s' s'' : State} {label : Label} {labels : List Label} :
      step s label s' → Trace step s' labels s'' → Trace step s (label :: labels) s''

namespace Trace

variable {step : State → Label → State → Prop} {step' : State' → Label → State' → Prop}

theorem nil_iff {s s' : State} : Trace step s [] s' ↔ s' = s := by
  constructor
  · intro h
    cases h
    rfl
  · intro h
    subst h
    exact .nil s'

theorem cons_iff {s s'' : State} {label : Label} {labels : List Label} :
    Trace step s (label :: labels) s'' ↔ ∃ s', step s label s' ∧ Trace step s' labels s'' := by
  constructor
  · intro h
    cases h with
    | cons hstep hrest => exact ⟨_, hstep, hrest⟩
  · intro h
    obtain ⟨s', hstep, hrest⟩ := h
    exact .cons hstep hrest

theorem append_iff {s s'' : State} {labels labels' : List Label} :
    Trace step s (labels ++ labels') s'' ↔
      ∃ s', Trace step s labels s' ∧ Trace step s' labels' s'' := by
  induction labels generalizing s with
  | nil => simp [nil_iff]
  | cons label labels ih =>
    simp only [List.cons_append, cons_iff, ih]
    constructor
    · intro h
      obtain ⟨s₁, hstep, s₂, hlabels, hrest⟩ := h
      exact ⟨s₂, ⟨s₁, hstep, hlabels⟩, hrest⟩
    · intro h
      obtain ⟨s₂, ⟨s₁, hstep, hlabels⟩, hrest⟩ := h
      exact ⟨s₁, hstep, s₂, hlabels, hrest⟩

/-- What every step keeps holds at the end of a trace. -/
theorem invariant {I : State → Prop}
    (hstep : ∀ {s label s'}, I s → step s label s' → I s') {s s' : State} {labels : List Label}
    (h : Trace step s labels s') (hs : I s) : I s' := by
  induction h with
  | nil => exact hs
  | cons hfirst _ ih => exact ih (hstep hs hfirst)

/-- What every step keeps, of the state and of the labels so far. -/
theorem history {I : List Label → State → Prop}
    (hstep : ∀ {labels s label s'}, I labels s → step s label s' → I (labels ++ [label]) s')
    {s s' : State} {labels : List Label} (before : List Label) (h : Trace step s labels s')
    (hs : I before s) : I (before ++ labels) s' := by
  induction h generalizing before with
  | nil =>
    rw [List.append_nil]
    exact hs
  | cons hfirst _ ih =>
    have hrest := ih _ (hstep hs hfirst)
    rw [List.append_assoc] at hrest
    exact hrest

/-- A system that can follow every step of another one has its traces. -/
theorem simulate {R : State → State' → Prop}
    (hstep : ∀ {s label s₁ t}, R s t → step s label s₁ → ∃ t₁, step' t label t₁ ∧ R s₁ t₁)
    {s s₁ : State} {labels : List Label} (h : Trace step s labels s₁) {t : State'} (hR : R s t) :
    ∃ t₁, Trace step' t labels t₁ ∧ R s₁ t₁ := by
  induction h generalizing t with
  | nil s => exact ⟨t, .nil t, hR⟩
  | cons hfirst _ ih =>
    obtain ⟨t', hstep', hR'⟩ := hstep hR hfirst
    obtain ⟨t₁, htrace, hR₁⟩ := ih hR'
    exact ⟨t₁, .cons hstep' htrace, hR₁⟩

/-- A system whose traces are bounded, and which can go on by steps of some kind until it
    is done, can be brought to its end by such steps. -/
theorem completes {good : State → Label → State → Prop} {start : State} {bound : Nat}
    (done : State → Prop) (hsub : ∀ {s label s'}, good s label s' → step s label s')
    (hbound : ∀ {labels s}, Trace step start labels s → labels.length ≤ bound)
    (hprogress : ∀ {labels s}, Trace step start labels s → ¬ done s → ∃ label s', good s label s')
    {labels : List Label} {s : State} (h : Trace step start labels s) :
    ∃ labels' s', Trace good s labels' s' ∧ done s' := by
  induction hleft : bound - labels.length generalizing labels s with
  | zero =>
    by_cases hdone : done s
    · exact ⟨[], s, .nil s, hdone⟩
    · exfalso
      obtain ⟨label, s', hgood⟩ := hprogress h hdone
      have hlonger := hbound (append_iff.mpr ⟨s, h, .cons (hsub hgood) (.nil s')⟩)
      rw [List.length_append, List.length_singleton] at hlonger
      omega
  | succ left ih =>
    by_cases hdone : done s
    · exact ⟨[], s, .nil s, hdone⟩
    · obtain ⟨label, s', hgood⟩ := hprogress h hdone
      have hlonger : Trace step start (labels ++ [label]) s' :=
        append_iff.mpr ⟨s, h, .cons (hsub hgood) (.nil s')⟩
      obtain ⟨labels', s'', htrace, hend⟩ := ih hlonger (by
        rw [List.length_append, List.length_singleton]
        omega)
      exact ⟨label :: labels', s'', .cons hgood htrace, hend⟩

end Trace

end QuizArena.Lib
