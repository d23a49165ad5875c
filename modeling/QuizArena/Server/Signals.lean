import QuizArena.Server.Serve

/-!
# The signals

Only signals that have arrived are received, and only the first one that is: after it the
signals that arrive could as well be left out, or others put in.
-/

namespace QuizArena.Server

open Lib

variable {labels : List Label} {s s' : State} {label : Label}

/-- Only signals that have arrived are received. -/
def Arrived (labels : List Label) (s : State) : Prop :=
  ∀ signal, s.unread signal = true ∨ .receives signal ∈ labels → .arrives signal ∈ labels

theorem Step.unread_or {signal : SignalKind} (hstep : Step s label s')
    (hunread : s'.unread signal = true) : s.unread signal = true ∨ label = .arrives signal := by
  cases hstep with
  | @arrives arrived =>
    by_cases heq : signal = arrived
    · exact Or.inr (by rw [heq])
    · left
      rw [← hunread]
      exact (Function.update_of_ne heq ..).symm
  | @receives received =>
    by_cases heq : signal = received
    · subst heq
      have hfalse : Function.update s.unread signal false signal = true := hunread
      rw [Function.update_self] at hfalse
      cases hfalse
    · left
      rw [← hunread]
      exact (Function.update_of_ne heq ..).symm
  | tick | kills | starts | listens | startFails | reports | delays | sends | drops | wakes
    | expires | stops | accepts | completes | serves | servingFails | shutsDown | returns =>
    exact Or.inl hunread

theorem Arrived.step (h : Arrived labels s) (hstep : Step s label s') :
    Arrived (labels ++ [label]) s' := by
  intro signal hsignal
  have hbefore : (s.unread signal = true ∨ .receives signal ∈ labels) ∨
      label = .arrives signal := by
    rcases hsignal with hunread | hreceives
    · rcases hstep.unread_or hunread with hunread | heq
      · exact Or.inl (Or.inl hunread)
      · exact Or.inr heq
    · rcases List.mem_append.mp hreceives with hreceives | hreceives
      · exact Or.inl (Or.inr hreceives)
      · rw [← List.mem_singleton.mp hreceives] at hstep
        cases hstep with
        | receives _ hunread => exact Or.inl (Or.inl hunread)
  rcases hbefore with hbefore | heq
  · exact List.mem_append_left _ (h signal hbefore)
  · rw [heq]
    exact List.mem_append_right _ List.mem_cons_self

/-- A state without the signals that nobody has received. -/
def State.unheard (s : State) : State := { s with unread := fun _ => false }

/-- Labels without the signals that arrive. -/
def unsignalled (labels : List Label) : List Label :=
  labels.filter fun
    | .arrives _ => false
    | _ => true

/-- A signal has been received: the future does not look for another one. -/
structure Heard (s : State) : Prop where
  installed : ∀ signal, s.installed signal = true
  notStarting : ∀ step, s.stage ≠ .starting step
  notSelects : s.shutdown ≠ .selects

theorem Heard.step (h : Heard s) (hstep : Step s label s') : Heard s' := by
  cases hstep with
  | tick | arrives | drops | wakes | stops | accepts | completes =>
    exact ⟨h.installed, h.notStarting, h.notSelects⟩
  | starts hstage | listens hstage | startFails hstage => exact absurd hstage (h.notStarting _)
  | receives hshutdown => exact absurd hshutdown h.notSelects
  | kills | expires | serves | servingFails | shutsDown | returns =>
    exact ⟨h.installed, nofun, h.notSelects⟩
  | reports | delays | sends => exact ⟨h.installed, h.notStarting, nofun⟩

/-- Once a signal has been received no step depends on those that are unread. -/
theorem Heard.step_unread (h : Heard s) (hstep : Step s label s')
    (hlabel : ∀ signal, label ≠ .arrives signal) (unread : SignalKind → Bool) :
    Step { s with unread := unread } label { s' with unread := unread } := by
  cases hstep with
  | tick time => exact .tick _ time
  | arrives | kills => exact absurd rfl (hlabel _)
  | starts hstage | listens hstage | startFails hstage => exact absurd hstage (h.notStarting _)
  | receives hshutdown => exact absurd hshutdown h.notSelects
  | reports hshutdown => exact .reports hshutdown
  | delays hshutdown => exact .delays hshutdown
  | sends hshutdown hdeadline => exact .sends hshutdown hdeadline
  | drops h₁ h₂ h₃ h₄ => exact .drops h₁ h₂ h₃ h₄
  | wakes h₁ h₂ h₃ => exact .wakes h₁ h₂ h₃
  | expires h₁ h₂ h₃ => exact .expires h₁ h₂ h₃
  | stops h₁ h₂ h₃ => exact .stops h₁ h₂ h₃
  | accepts h₁ h₂ => exact .accepts h₁ h₂
  | completes hinFlight => exact .completes hinFlight
  | serves h₁ h₂ h₃ => exact .serves h₁ h₂ h₃
  | servingFails h₁ h₂ h₃ => exact .servingFails h₁ h₂ h₃
  | shutsDown h₁ h₂ => exact .shutsDown h₁ h₂
  | returns hstage => exact .returns hstage

theorem unsignalled_cons (labels : List Label) (hlabel : ∀ signal, label ≠ .arrives signal) :
    unsignalled (label :: labels) = label :: unsignalled labels := by
  cases label with
  | arrives signal => exact absurd rfl (hlabel signal)
  | tick | starts | receives | reports | delays | sends | drops | wakes | expires | stops | accepts
    | completes | serves | shutsDown | returns => rfl

/-- The signals that arrive can be left out. -/
theorem Heard.leaveOut (h : Heard s) (htrace : Trace Step s labels s')
    (unread : SignalKind → Bool) :
    Trace Step { s with unread := unread } (unsignalled labels) { s' with unread := unread } := by
  induction htrace with
  | nil => exact .nil _
  | @cons s s₁ s₂ label labels hstep _ ih =>
    have hrest := ih (h.step hstep)
    by_cases hlabel : ∃ signal, label = .arrives signal
    · obtain ⟨signal, rfl⟩ := hlabel
      cases hstep with
      | arrives => exact hrest
      | kills hsignal => cases (h.installed signal).symm.trans hsignal
    · have hother : ∀ signal, label ≠ .arrives signal := fun signal heq => hlabel ⟨signal, heq⟩
      rw [unsignalled_cons labels hother]
      exact .cons (h.step_unread hstep hother unread) hrest

/-- Signals can arrive anywhere. -/
theorem Heard.putIn (h : Heard s) (htrace : Trace Step s (unsignalled labels) s')
    (unread : SignalKind → Bool) :
    ∃ unread', Trace Step { s with unread := unread } labels { s' with unread := unread' } := by
  induction labels generalizing s unread with
  | nil =>
    cases htrace
    exact ⟨unread, .nil _⟩
  | cons label labels ih =>
    by_cases hlabel : ∃ signal, label = .arrives signal
    · obtain ⟨signal, rfl⟩ := hlabel
      obtain ⟨unread', hrest⟩ := ih h htrace (Function.update unread signal true)
      exact ⟨unread', .cons (.arrives (h.installed signal)) hrest⟩
    · have hother : ∀ signal, label ≠ .arrives signal := fun signal heq => hlabel ⟨signal, heq⟩
      rw [unsignalled_cons labels hother] at htrace
      obtain ⟨s₁, hstep, hrest⟩ := Trace.cons_iff.mp htrace
      obtain ⟨unread', htrace'⟩ := ih (h.step hstep) hrest unread
      exact ⟨unread', .cons (h.step_unread hstep hother unread) htrace'⟩

end QuizArena.Server
