import QuizArena.Server.Serve

/-!
# The phases of the shutdown

The invariants of a run of `serve`, kept by every step: when the phases of the two futures
came, how the futures, axum and the stage go together, what is in flight at the end, and
what has become of the telemetry handle.
-/

namespace QuizArena.Server

open Lib

variable {telemetry : Telemetry} {labels : List Label} {s s' : State} {label : Label}

/-! ## When the phases come -/

/-- The phases up to the start of the drain, which is signalled at `sent`. -/
inductive Signalled (signal : SignalKind) (sent : Nat) : List (Nat × Label) → Prop where
  | intro {t₀ t₁ t₂ : Nat} : t₁ ≤ t₂ → t₂ + propagationDelay signal ≤ sent →
      Signalled signal sent
        [(t₀, .receives signal), (t₁, .reports), (t₂, .delays), (sent, .sends)]

/-- The phases that lie behind the two futures, and when they came. -/
inductive Schedule (now : Nat) :
    Shutdown → Sender → Health → Drain → List (Nat × Label) → Prop where
  | notSpawned : Schedule now .notSpawned .held .serving .awaits []
  | selects : Schedule now .selects .held .serving .awaits []
  | reports {signal : SignalKind} {t₀ : Nat} :
      Schedule now (.reports signal) .held .serving .awaits [(t₀, .receives signal)]
  | delays {signal : SignalKind} {t₀ t₁ : Nat} : t₁ ≤ now →
      Schedule now (.delays signal) .held .notServing .awaits
        [(t₀, .receives signal), (t₁, .reports)]
  | sleeps {signal : SignalKind} {t₀ t₁ t₂ : Nat} : t₁ ≤ t₂ →
      Schedule now (.sleeps signal (t₂ + propagationDelay signal)) .held .notServing .awaits
        [(t₀, .receives signal), (t₁, .reports), (t₂, .delays)]
  | sends {signal : SignalKind} {sent : Nat} {list : List (Nat × Label)} :
      Signalled signal sent list → sent ≤ now →
      Schedule now .completed .sent .notServing .awaits list
  | wakes {signal : SignalKind} {sent woken : Nat} {list : List (Nat × Label)} :
      Signalled signal sent list → sent ≤ woken → woken ≤ now →
      Schedule now .completed .sent .notServing (.sleeps (woken + drainTimeout))
        (list ++ [(woken, .wakes)])
  | expires {signal : SignalKind} {sent woken expired : Nat} {list : List (Nat × Label)} :
      Signalled signal sent list → sent ≤ woken → woken + drainTimeout ≤ expired →
      expired ≤ now →
      Schedule now .completed .sent .notServing .completed
        (list ++ [(woken, .wakes), (expired, .expires)])

namespace Schedule

variable {now now' : Nat} {shutdown : Shutdown} {sender : Sender} {health : Health}
  {drain : Drain} {list : List (Nat × Label)} {signal : SignalKind} {deadline : Nat}

theorem mono (h : Schedule now shutdown sender health drain list) (hnow : now ≤ now') :
    Schedule now' shutdown sender health drain list := by
  cases h with
  | notSpawned => exact .notSpawned
  | selects => exact .selects
  | reports => exact .reports
  | delays ht₁ => exact .delays (Nat.le_trans ht₁ hnow)
  | sleeps ht₂ => exact .sleeps ht₂
  | sends hlist hsent => exact .sends hlist (Nat.le_trans hsent hnow)
  | wakes hlist hsent hwoken => exact .wakes hlist hsent (Nat.le_trans hwoken hnow)
  | expires hlist hsent hwoken hexpired =>
    exact .expires hlist hsent hwoken (Nat.le_trans hexpired hnow)

theorem step_listens (h : Schedule now .notSpawned sender health drain list) :
    Schedule now .selects sender health drain list := by
  cases h with
  | notSpawned => exact .selects

theorem step_receives (h : Schedule now .selects sender health drain list) :
    Schedule now (.reports signal) sender health drain (list ++ [(now, .receives signal)]) := by
  cases h with
  | selects => exact .reports

theorem step_reports (h : Schedule now (.reports signal) sender health drain list) :
    Schedule now (.delays signal) sender .notServing drain (list ++ [(now, .reports)]) := by
  cases h with
  | reports => exact .delays (Nat.le_refl now)

theorem step_delays (h : Schedule now (.delays signal) sender health drain list) :
    Schedule now (.sleeps signal (now + propagationDelay signal)) sender health drain
      (list ++ [(now, .delays)]) := by
  cases h with
  | delays ht₁ => exact .sleeps ht₁

theorem step_sends (h : Schedule now (.sleeps signal deadline) sender health drain list)
    (hdeadline : deadline ≤ now) :
    Schedule now .completed .sent health drain (list ++ [(now, .sends)]) := by
  cases h with
  | sleeps ht₂ => exact .sends (.intro ht₂ hdeadline) (Nat.le_refl now)

theorem step_wakes (h : Schedule now shutdown sender health .awaits list)
    (hsender : sender ≠ .held) :
    Schedule now shutdown sender health (.sleeps (now + drainTimeout))
      (list ++ [(now, .wakes)]) := by
  cases h with
  | notSpawned | selects | reports | delays | sleeps => exact absurd rfl hsender
  | sends hlist hsent => exact .wakes hlist hsent (Nat.le_refl now)

theorem step_expires (h : Schedule now shutdown sender health (.sleeps deadline) list)
    (hdeadline : deadline ≤ now) :
    Schedule now shutdown sender health .completed (list ++ [(now, .expires)]) := by
  cases h with
  | wakes hlist hsent hwoken =>
    rw [List.append_assoc]
    exact .expires hlist hsent hdeadline (Nat.le_refl now)

/-- The sender is gone, or the drain under way, only after the shutdown future has ended. -/
theorem completed_of_sender (h : Schedule now shutdown sender health drain list)
    (hgone : sender ≠ .held ∨ drain ≠ .awaits) : shutdown = .completed := by
  cases h with
  | sends | wakes | expires => rfl
  | notSpawned | selects | reports | delays | sleeps => simp at hgone

end Schedule

/-- The phases of a run and where its futures stand. -/
def Scheduled (labels : List Label) (s : State) : Prop :=
  s.now = timeOf labels ∧
    Schedule s.now s.shutdown s.sender s.health s.drain (phases labels)

/-! ## Where everything stands -/

/-- How the stage, the shutdown future, axum and the handlers go together. -/
inductive Placed (s : State) : Prop where
  | starting {step : Startup} : s.stage = .starting step → s.shutdown = .notSpawned →
      s.accepting = false → s.inFlight = 0 →
      (step = .sigterm → s.installed .interrupt = true) → Placed s
  | selecting : s.stage = .selecting → s.shutdown ≠ .notSpawned →
      (∀ signal, s.installed signal = true) → (s.accepting = false → s.shutdown = .completed) →
      Placed s
  | past : (∀ step, s.stage ≠ .starting step) → s.stage ≠ .selecting → s.accepting = false →
      (s.shutdown = .notSpawned ∧ s.inFlight = 0 ∨
        s.shutdown = .completed ∧ ∀ signal, s.installed signal = true) → Placed s

namespace Placed

theorem start (telemetry : Telemetry) : Placed (.start telemetry) :=
  .starting rfl rfl rfl rfl fun h => by cases h

theorem of_starting {step : Startup} (h : Placed s) (hstage : s.stage = .starting step) :
    s.shutdown = .notSpawned ∧ s.accepting = false ∧ s.inFlight = 0 ∧
      (step = .sigterm → s.installed .interrupt = true) := by
  cases h with
  | starting hstarting hshutdown haccepting hinFlight hinterrupt =>
    cases hstarting.symm.trans hstage
    exact ⟨hshutdown, haccepting, hinFlight, hinterrupt⟩
  | selecting hselecting => cases hselecting.symm.trans hstage
  | past hpast => exact absurd hstage (hpast step)

theorem of_selecting (h : Placed s) (hstage : s.stage = .selecting) :
    s.shutdown ≠ .notSpawned ∧ (∀ signal, s.installed signal = true) ∧
      (s.accepting = false → s.shutdown = .completed) := by
  cases h with
  | starting hstarting => cases hstarting.symm.trans hstage
  | selecting _ hspawned hinstalled haccepting => exact ⟨hspawned, hinstalled, haccepting⟩
  | past _ hpast => exact absurd hstage hpast

theorem of_past (h : Placed s) (hstarting : ∀ step, s.stage ≠ .starting step)
    (hselecting : s.stage ≠ .selecting) : s.accepting = false ∧
      (s.shutdown = .notSpawned ∧ s.inFlight = 0 ∨
        s.shutdown = .completed ∧ ∀ signal, s.installed signal = true) := by
  cases h with
  | starting hstage => exact absurd hstage (hstarting _)
  | selecting hstage => exact absurd hstage hselecting
  | past _ _ haccepting hshutdown => exact ⟨haccepting, hshutdown⟩

/-- While the shutdown future is on its way axum accepts. -/
theorem of_running (h : Placed s) (hspawned : s.shutdown ≠ .notSpawned)
    (hrunning : s.shutdown ≠ .completed) :
    s.stage = .selecting ∧ s.accepting = true ∧ ∀ signal, s.installed signal = true := by
  cases h with
  | starting _ hshutdown => exact absurd hshutdown hspawned
  | selecting hstage _ hinstalled haccepting =>
    refine ⟨hstage, ?_, hinstalled⟩
    cases hvalue : s.accepting with
    | true => rfl
    | false => exact absurd (haccepting hvalue) hrunning
  | past _ _ _ hshutdown =>
    rcases hshutdown with ⟨hshutdown, _⟩ | ⟨hshutdown, _⟩
    · exact absurd hshutdown hspawned
    · exact absurd hshutdown hrunning

theorem same (h : Placed s) (hstage : s'.stage = s.stage) (hshutdown : s'.shutdown = s.shutdown)
    (haccepting : s'.accepting = s.accepting) (hinFlight : s'.inFlight = s.inFlight)
    (hinstalled : s'.installed = s.installed) : Placed s' := by
  cases h with
  | starting h₁ h₂ h₃ h₄ h₅ =>
    rw [← hstage] at h₁
    rw [← hshutdown] at h₂
    rw [← haccepting] at h₃
    rw [← hinFlight] at h₄
    rw [← hinstalled] at h₅
    exact .starting h₁ h₂ h₃ h₄ h₅
  | selecting h₁ h₂ h₃ h₄ =>
    rw [← hstage] at h₁
    rw [← hshutdown] at h₂ h₄
    rw [← hinstalled] at h₃
    rw [← haccepting] at h₄
    exact .selecting h₁ h₂ h₃ h₄
  | past h₁ h₂ h₃ h₄ =>
    rw [← hstage] at h₁ h₂
    rw [← haccepting] at h₃
    rw [← hshutdown, ← hinFlight, ← hinstalled] at h₄
    exact .past h₁ h₂ h₃ h₄

theorem step (h : Placed s) (hscheduled : Scheduled labels s) (hstep : Step s label s') :
    Placed s' := by
  cases hstep with
  | tick | arrives | drops | wakes => exact h.same rfl rfl rfl rfl rfl
  | @kills signal hsignal =>
    have hkilled : ∀ step, Stage.killed ≠ .starting step := nofun
    cases h with
    | starting _ hshutdown haccepting hinFlight =>
      exact .past hkilled nofun haccepting (Or.inl ⟨hshutdown, hinFlight⟩)
    | selecting _ _ hinstalled => cases (hinstalled signal).symm.trans hsignal
    | past _ _ haccepting hshutdown => exact .past hkilled nofun haccepting hshutdown
  | @starts step next hstage hnext =>
    obtain ⟨hshutdown, haccepting, hinFlight, _⟩ := h.of_starting hstage
    refine .starting rfl hshutdown haccepting hinFlight ?_
    intro hsigterm
    subst hsigterm
    cases step with
    | sigint =>
      show Function.update s.installed .interrupt true .interrupt = true
      exact Function.update_self ..
    | reflector | bind | localAddr | sigterm => cases hnext
  | @listens step hstage hnext =>
    obtain ⟨_, _, _, hinterrupt⟩ := h.of_starting hstage
    cases step with
    | reflector | bind | localAddr | sigint => cases hnext
    | sigterm =>
      refine .selecting rfl nofun ?_ nofun
      intro signal
      cases signal with
      | interrupt => exact hinterrupt rfl
      | terminate =>
        show Function.update s.installed .terminate true .terminate = true
        exact Function.update_self ..
  | startFails hstage =>
    obtain ⟨hshutdown, haccepting, hinFlight, _⟩ := h.of_starting hstage
    exact .past nofun nofun haccepting (Or.inl ⟨hshutdown, hinFlight⟩)
  | receives hshutdown | reports hshutdown | delays hshutdown =>
    obtain ⟨hstage, haccepts, hinstalled⟩ := h.of_running (by rw [hshutdown]; nofun)
      (by rw [hshutdown]; nofun)
    exact .selecting hstage nofun hinstalled fun hnot => by cases haccepts.symm.trans hnot
  | sends hshutdown =>
    obtain ⟨hstage, _, hinstalled⟩ := h.of_running (by rw [hshutdown]; nofun)
      (by rw [hshutdown]; nofun)
    exact .selecting hstage nofun hinstalled fun _ => rfl
  | @expires deadline hstage hdrain =>
    obtain ⟨_, hinstalled, _⟩ := h.of_selecting hstage
    have hcompleted := hscheduled.2.completed_of_sender (Or.inr (by rw [hdrain]; nofun))
    exact .past nofun nofun rfl (Or.inr ⟨hcompleted, hinstalled⟩)
  | stops hstage hshutdown =>
    obtain ⟨hspawned, hinstalled, _⟩ := h.of_selecting hstage
    exact .selecting hstage hspawned hinstalled fun _ => hshutdown
  | accepts hstage haccepting =>
    obtain ⟨hspawned, hinstalled, hcompleted⟩ := h.of_selecting hstage
    exact .selecting hstage hspawned hinstalled hcompleted
  | completes hinFlight =>
    cases h with
    | starting _ _ _ hzero => cases hzero.symm.trans hinFlight
    | selecting h₁ h₂ h₃ h₄ => exact .selecting h₁ h₂ h₃ h₄
    | past h₁ h₂ h₃ hshutdown =>
      rcases hshutdown with ⟨_, hzero⟩ | hcompleted
      · cases hzero.symm.trans hinFlight
      · exact .past h₁ h₂ h₃ (Or.inr hcompleted)
  | serves hstage haccepting | servingFails hstage haccepting =>
    obtain ⟨_, hinstalled, hcompleted⟩ := h.of_selecting hstage
    exact .past nofun nofun haccepting (Or.inr ⟨hcompleted haccepting, hinstalled⟩)
  | shutsDown hstage | returns hstage =>
    obtain ⟨haccepting, hshutdown⟩ := h.of_past (by rw [hstage]; nofun) (by rw [hstage]; nofun)
    exact .past nofun nofun haccepting hshutdown

end Placed

theorem Scheduled.step (h : Scheduled labels s) (hplaced : Placed s) (hstep : Step s label s') :
    Scheduled (labels ++ [label]) s' := by
  obtain ⟨hnow, hschedule⟩ := h
  have htime : timeOf (labels ++ [label]) = timeOf labels + label.time := by
    rw [timeOf, elapsed_append]
    rfl
  have hsnoc : label.isPhase = true →
      phases (labels ++ [label]) = phases labels ++ [(s.now, label)] := by
    intro hphase
    rw [hnow]
    exact timeline_snoc _ _ labels hphase
  have hsame : label.isPhase = false → phases (labels ++ [label]) = phases labels :=
    timeline_snoc_of_not _ _ labels
  refine ⟨?_, ?_⟩
  · rw [htime, hstep.now, hnow]
  cases hstep with
  | tick time =>
    rw [hsame rfl]
    exact hschedule.mono (Nat.le_add_right ..)
  | arrives | kills | starts | startFails | stops | accepts | completes | serves | servingFails
    | shutsDown | returns =>
    rw [hsame rfl]
    exact hschedule
  | listens hstage =>
    rw [hsame rfl]
    rw [(hplaced.of_starting hstage).1] at hschedule
    exact hschedule.step_listens
  | receives hshutdown =>
    rw [hsnoc rfl]
    rw [hshutdown] at hschedule
    exact hschedule.step_receives
  | reports hshutdown =>
    rw [hsnoc rfl]
    rw [hshutdown] at hschedule
    exact hschedule.step_reports
  | delays hshutdown =>
    rw [hsnoc rfl]
    rw [hshutdown] at hschedule
    exact hschedule.step_delays
  | sends hshutdown hdeadline =>
    rw [hsnoc rfl]
    rw [hshutdown] at hschedule
    exact hschedule.step_sends hdeadline
  | drops hstarting hselecting hspawned hrunning =>
    exact absurd (hplaced.of_running hspawned hrunning).1 hselecting
  | wakes _ hdrain hsender =>
    rw [hsnoc rfl]
    rw [hdrain] at hschedule
    exact hschedule.step_wakes hsender
  | expires _ hdrain hdeadline =>
    rw [hsnoc rfl]
    rw [hdrain] at hschedule
    exact hschedule.step_expires hdeadline

/-! ## The end of serving -/

/-- The drain has timed out since its start was signalled. -/
def Drained (labels : List Label) : Prop :=
  ∃ sent, (sent, Label.sends) ∈ phases labels ∧ sent + drainTimeout ≤ timeOf labels

theorem Drained.append (h : Drained labels) (labels' : List Label) :
    Drained (labels ++ labels') := by
  obtain ⟨sent, hsent, htime⟩ := h
  refine ⟨sent, ?_, ?_⟩
  · rw [phases, timeline_append]
    exact List.mem_append_left _ hsent
  · rw [timeOf, elapsed_append]
    exact Nat.le_trans htime (Nat.le_add_right ..)

theorem Signalled.mem_sends {signal : SignalKind} {sent : Nat} {list : List (Nat × Label)}
    (h : Signalled signal sent list) : (sent, Label.sends) ∈ list := by
  cases h with
  | intro => simp

/-- When the drain times out. -/
theorem Scheduled.drained {deadline : Nat} (h : Scheduled labels s)
    (hdrain : s.drain = .sleeps deadline) (hdeadline : deadline ≤ s.now) : Drained labels := by
  obtain ⟨hnow, hschedule⟩ := h
  rw [hdrain] at hschedule
  rw [Drained, ← hnow]
  generalize phases labels = list at hschedule
  generalize s.shutdown = shutdown, s.sender = sender, s.health = health at hschedule
  cases hschedule with
  | wakes hlist hsent => exact ⟨_, List.mem_append_left _ hlist.mem_sends, by omega⟩

/-- Past serving nothing is in flight, unless the drain has timed out. -/
def Finished (labels : List Label) (s : State) : Prop :=
  (∀ step, s.stage ≠ .starting step) → s.stage ≠ .selecting → s.stage ≠ .killed →
    s.inFlight = 0 ∨ Drained labels

theorem Finished.step (h : Finished labels s) (hscheduled : Scheduled labels s) (hplaced : Placed s)
    (hstep : Step s label s') : Finished (labels ++ [label]) s' := by
  intro hstarting hselecting hkilled
  have hmono : s.inFlight = 0 ∨ Drained labels →
      s.inFlight = 0 ∨ Drained (labels ++ [label]) := by
    intro hfinished
    rcases hfinished with hzero | hdrained
    · exact Or.inl hzero
    · exact Or.inr (hdrained.append _)
  cases hstep with
  | tick | arrives | receives | reports | delays | sends | drops | wakes | stops =>
    exact hmono (h hstarting hselecting hkilled)
  | kills => exact absurd rfl hkilled
  | starts => exact absurd rfl (hstarting _)
  | listens => exact absurd rfl hselecting
  | startFails hstage => exact Or.inl (hplaced.of_starting hstage).2.2.1
  | expires _ hdrain hdeadline => exact Or.inr ((hscheduled.drained hdrain hdeadline).append _)
  | accepts hstage => exact absurd hstage hselecting
  | completes hinFlight =>
    rcases h hstarting hselecting hkilled with hzero | hdrained
    · cases hzero.symm.trans hinFlight
    · exact Or.inr (hdrained.append _)
  | serves _ _ hzero | servingFails _ _ hzero => exact Or.inl hzero
  | shutsDown hstage | returns hstage =>
    apply hmono
    apply h
    · rw [hstage]
      exact nofun
    · rw [hstage]
      exact nofun
    · rw [hstage]
      exact nofun

/-! ## The telemetry handle -/

/-- The handle and what has been shut down of its exporters. -/
structure Handed (telemetry : Telemetry) (labels : List Label) (s : State) : Prop where
  whole : s.exported ++ s.telemetry.elim [] Telemetry.drop = telemetry.drop
  early : .shutsDown ∉ labels → .returns ∉ labels → s.exported = []
  served : s.stage = .shuttingDown → .serves true ∈ labels ∨ .expires ∈ labels
  left : s.stage = .leaving (.ok ()) → .shutsDown ∈ labels
  returned : ∀ result, s.stage = .returned result → s.telemetry = none ∧
    (result = .ok () → .shutsDown ∈ labels)

theorem Handed.start (telemetry : Telemetry) : Handed telemetry [] (.start telemetry) where
  whole := rfl
  early _ _ := rfl
  served h := by cases h
  left h := by cases h
  returned _ h := by cases h

/-- A step that has nothing to do with the handle. -/
theorem Handed.same (h : Handed telemetry labels s) (hexported : s'.exported = s.exported)
    (htelemetry : s'.telemetry = s.telemetry)
    (hserved : s'.stage = .shuttingDown → .serves true ∈ labels ++ [label] ∨
      .expires ∈ labels ++ [label])
    (hleft : s'.stage = .leaving (.ok ()) → s.stage = .leaving (.ok ()))
    (hreturned : ∀ result, s'.stage = .returned result → s.stage = .returned result) :
    Handed telemetry (labels ++ [label]) s' where
  whole := by
    rw [hexported, htelemetry]
    exact h.whole
  early hshutsDown hreturns := by
    rw [hexported]
    apply h.early
    · exact fun hmem => hshutsDown (List.mem_append_left _ hmem)
    · exact fun hmem => hreturns (List.mem_append_left _ hmem)
  served := hserved
  left hstage := List.mem_append_left _ (h.left (hleft hstage))
  returned result hstage := by
    obtain ⟨hmoved, hok⟩ := h.returned result (hreturned result hstage)
    rw [htelemetry]
    exact ⟨hmoved, fun hresult => List.mem_append_left _ (hok hresult)⟩

theorem Handed.step (h : Handed telemetry labels s) (hstep : Step s label s') :
    Handed telemetry (labels ++ [label]) s' := by
  have hserved : s.stage = .shuttingDown →
      .serves true ∈ labels ++ [label] ∨ .expires ∈ labels ++ [label] := by
    intro hstage
    rcases h.served hstage with hserves | hexpires
    · exact Or.inl (List.mem_append_left _ hserves)
    · exact Or.inr (List.mem_append_left _ hexpires)
  have hlast : label ∈ labels ++ [label] := List.mem_append_right _ List.mem_cons_self
  cases hstep with
  | tick | arrives | receives | reports | delays | sends | drops | wakes | stops | accepts
    | completes => exact h.same rfl rfl hserved id fun _ => id
  | kills | starts | listens | startFails | servingFails =>
    exact h.same rfl rfl nofun nofun nofun
  | expires => exact h.same rfl rfl (fun _ => Or.inr hlast) nofun nofun
  | serves => exact h.same rfl rfl (fun _ => Or.inl hlast) nofun nofun
  | @shutsDown handle _ hhandle =>
    have hwhole := h.whole
    rw [hhandle] at hwhole
    refine ⟨?_, ?_, nofun, fun _ => hlast, nofun⟩
    · show (s.exported ++ handle.shutdown) ++ [] = _
      rw [List.append_nil, handle.shutdown_eq_drop]
      exact hwhole
    · intro hnot
      exact absurd hlast hnot
  | @returns result hstage =>
    refine ⟨?_, ?_, nofun, nofun, ?_⟩
    · show (s.exported ++ s.telemetry.elim [] Telemetry.drop) ++ [] = _
      rw [List.append_nil]
      exact h.whole
    · intro _ hnot
      exact absurd hlast hnot
    · intro result' hresult
      cases hresult
      refine ⟨rfl, ?_⟩
      intro hok
      subst hok
      exact List.mem_append_left _ (h.left hstage)

end QuizArena.Server
