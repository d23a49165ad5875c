import QuizArena.Server.Phases
import QuizArena.Server.Signals

/-!
# The order of the shutdown

What holds after every run of `serve`: the phases of the shutdown come one after another
and last as long as they should, signals that arrive later change nothing, and the
exporters are shut down once on every way out.
-/

namespace QuizArena.Server

open Lib

variable {telemetry : Telemetry} {labels : List Label} {s s' : State} {label : Label}

/-- The times of the phases of a shutdown that times out. -/
structure Times where
  received : Nat
  reported : Nat
  delayed : Nat
  sent : Nat
  woken : Nat
  expired : Nat

/-- The phases of a shutdown, for the signal that is received. -/
def Times.phases (times : Times) (signal : SignalKind) : List (Nat × Label) :=
  [(times.received, .receives signal), (times.reported, .reports), (times.delayed, .delays),
    (times.sent, .sends), (times.woken, .wakes), (times.expired, .expires)]

/-- The phases last as long as they should. -/
structure Times.Kept (times : Times) (signal : SignalKind) : Prop where
  delayed : times.reported ≤ times.delayed
  sent : times.delayed + propagationDelay signal ≤ times.sent
  woken : times.sent ≤ times.woken
  expired : times.woken + drainTimeout ≤ times.expired

/-- The order of a shutdown: what holds after a run, and of each step that may follow. -/
structure OrderlyShutdown (telemetry : Telemetry) (labels : List Label) (s : State) : Prop where
  /-- The phases come in their order, each at most once, however many signals arrive. -/
  schedule : ∃ (signal : SignalKind) (times : Times), times.Kept signal ∧
    phases labels <+: times.phases signal
  /-- Other signals after the first that is received would have led to the same. -/
  laterSignals : ∀ before signal after after', labels = before ++ .receives signal :: after →
    unsignalled after' = unsignalled after →
    ∃ s', Run telemetry (before ++ .receives signal :: after') s' ∧ s'.unheard = s.unheard
  stopsAccepting : ∀ label s', Step s label s' → s.accepting = true → s'.accepting = false →
    s.health = .notServing ∧ ∃ signal reported, .receives signal ∈ labels ∧
      (reported, .reports) ∈ phases labels ∧
      reported + propagationDelay signal ≤ timeOf labels
  returns : ∀ s', Step s .returns s' → 0 < s.inFlight → Drained labels
  expires : ∀ s', Step s .expires s' → ∃ signal, .arrives signal ∈ labels
  shutsDown : ∀ s', Step s .shutsDown s' → .serves true ∈ labels ∨ .expires ∈ labels
  early : .shutsDown ∉ labels → .returns ∉ labels → s.exported = []
  once : ∀ result, s.stage = .returned result → ∀ exporter,
    (s.exported.map Report.exporter).count exporter = if telemetry.isExporting then 1 else 0
  normal : s.stage = .returned (.ok ()) → .shutsDown ∈ labels

/-- In seconds: new connections are taken for five more after a SIGTERM, and the drain has
    ten. -/
theorem OrderlyShutdown.seconds (h : OrderlyShutdown telemetry labels s) :
    ∃ (signal : SignalKind) (times : Times), phases labels <+: times.phases signal ∧
      (signal = .terminate → times.delayed + fromSecs 5 ≤ times.sent) ∧
      times.woken + fromSecs 10 ≤ times.expired := by
  obtain ⟨signal, times, hkept, hphases⟩ := h.schedule
  refine ⟨signal, times, hphases, ?_, hkept.expired⟩
  rintro rfl
  exact hkept.sent

/-! ## Runs -/

/-- What holds after a run. -/
structure Ordered (telemetry : Telemetry) (labels : List Label) (s : State) : Prop where
  scheduled : Scheduled labels s
  placed : Placed s
  finished : Finished labels s
  handed : Handed telemetry labels s
  arrived : Arrived labels s

theorem ordered_of_run (hrun : Run telemetry labels s) : Ordered telemetry labels s := by
  have hstart : Ordered telemetry [] (.start telemetry) := by
    refine ⟨⟨rfl, .notSpawned⟩, .start telemetry, ?_, .start telemetry, ?_⟩
    · intro hstarting
      exact absurd rfl (hstarting .reflector)
    · intro signal hsignal
      rcases hsignal with hunread | hreceives
      · cases hunread
      · cases hreceives
  refine Trace.history (I := Ordered telemetry) ?_ [] hrun hstart
  intro labels s label s' h hstep
  exact ⟨h.scheduled.step h.placed hstep, h.placed.step h.scheduled hstep,
    h.finished.step h.scheduled h.placed hstep, h.handed.step hstep, h.arrived.step hstep⟩

theorem Signalled.mem_receives {signal : SignalKind} {sent : Nat} {list : List (Nat × Label)}
    (h : Signalled signal sent list) : ∃ received reported, (received, .receives signal) ∈ list ∧
      (reported, .reports) ∈ list ∧ reported + propagationDelay signal ≤ sent := by
  cases h with
  | @intro t₀ t₁ t₂ ht₂ hsent => exact ⟨t₀, t₁, by simp, by simp, by omega⟩

/-- What comes in the phases has come in the run. -/
theorem mem_of_mem_phases {time : Nat} (h : (time, label) ∈ phases labels) : label ∈ labels := by
  have hmem : label ∈ (phases labels).map Prod.snd := List.mem_map_of_mem h
  rw [phases, map_snd_timeline] at hmem
  exact (List.mem_filter.mp hmem).1

/-- The shutdown future has ended: the health service reports it, and the delay has passed. -/
theorem Scheduled.completed (h : Scheduled labels s) (hshutdown : s.shutdown = .completed) :
    s.health = .notServing ∧ ∃ signal reported, .receives signal ∈ labels ∧
      (reported, .reports) ∈ phases labels ∧
      reported + propagationDelay signal ≤ timeOf labels := by
  obtain ⟨hnow, hschedule⟩ := h
  rw [hshutdown] at hschedule
  rw [← hnow]
  have hmem : ∀ time label, (time, label) ∈ phases labels → label ∈ labels :=
    fun _ _ => mem_of_mem_phases
  generalize phases labels = list at hschedule hmem
  generalize s.sender = sender, s.health = health, s.drain = drain at hschedule
  cases hschedule with
  | sends hlist hsent =>
    obtain ⟨received, reported, hreceives, hreports, htime⟩ := hlist.mem_receives
    exact ⟨rfl, _, reported, hmem _ _ hreceives, hreports, by omega⟩
  | wakes hlist hsent hwoken =>
    obtain ⟨received, reported, hreceives, hreports, htime⟩ := hlist.mem_receives
    exact ⟨rfl, _, reported, hmem _ _ (List.mem_append_left _ hreceives),
      List.mem_append_left _ hreports, by omega⟩
  | expires hlist hsent hwoken hexpired =>
    obtain ⟨received, reported, hreceives, hreports, htime⟩ := hlist.mem_receives
    exact ⟨rfl, _, reported, hmem _ _ (List.mem_append_left _ hreceives),
      List.mem_append_left _ hreports, by omega⟩

/-- The phases so far are the first ones of a shutdown that keeps to its times. -/
theorem Schedule.firstPhases {now : Nat} {shutdown : Shutdown} {sender : Sender} {health : Health}
    {drain : Drain} {list : List (Nat × Label)}
    (h : Schedule now shutdown sender health drain list) :
    ∃ (signal : SignalKind) (times : Times), times.Kept signal ∧ list <+: times.phases signal := by
  -- The phases that have not come yet come as early as they can.
  have hopen : ∀ (signal : SignalKind) (t₀ t₁ t₂ : Nat), t₁ ≤ t₂ →
      (Times.mk t₀ t₁ t₂ (t₂ + propagationDelay signal) (t₂ + propagationDelay signal)
        (t₂ + propagationDelay signal + drainTimeout)).Kept signal := by
    intro signal t₀ t₁ t₂ ht₂
    exact ⟨ht₂, Nat.le_refl _, Nat.le_refl _, Nat.le_refl _⟩
  cases h with
  | notSpawned | selects => exact ⟨.interrupt, _, hopen _ 0 0 0 (Nat.le_refl 0), _, rfl⟩
  | @reports signal t₀ => exact ⟨signal, _, hopen _ t₀ 0 0 (Nat.le_refl 0), _, rfl⟩
  | @delays signal t₀ t₁ => exact ⟨signal, _, hopen _ t₀ t₁ t₁ (Nat.le_refl t₁), _, rfl⟩
  | @sleeps signal t₀ t₁ t₂ ht₂ => exact ⟨signal, _, hopen _ t₀ t₁ t₂ ht₂, _, rfl⟩
  | @sends signal sent _ hlist =>
    cases hlist with
    | @intro t₀ t₁ t₂ ht₂ hsent =>
      exact ⟨signal, ⟨t₀, t₁, t₂, sent, sent, sent + drainTimeout⟩,
        ⟨ht₂, hsent, Nat.le_refl _, Nat.le_refl _⟩, _, rfl⟩
  | @wakes signal sent woken _ hlist hwoken =>
    cases hlist with
    | @intro t₀ t₁ t₂ ht₂ hsent =>
      exact ⟨signal, ⟨t₀, t₁, t₂, sent, woken, woken + drainTimeout⟩,
        ⟨ht₂, hsent, hwoken, Nat.le_refl _⟩, _, rfl⟩
  | @expires signal sent woken expired _ hlist hwoken hexpired =>
    cases hlist with
    | @intro t₀ t₁ t₂ ht₂ hsent =>
      exact ⟨signal, ⟨t₀, t₁, t₂, sent, woken, expired⟩, ⟨ht₂, hsent, hwoken, hexpired⟩, _, rfl⟩

/-- Other signals after the first that is received would have led to the same. -/
theorem later_signals {before after after' : List Label} {signal : SignalKind}
    (hrun : Run telemetry (before ++ .receives signal :: after) s)
    (hafter : unsignalled after' = unsignalled after) :
    ∃ s', Run telemetry (before ++ .receives signal :: after') s' ∧ s'.unheard = s.unheard := by
  obtain ⟨s₁, hbefore, hrest⟩ := Trace.append_iff.mp hrun
  obtain ⟨s₂, hstep, hafterwards⟩ := Trace.cons_iff.mp hrest
  have hheard : Heard s₂ := by
    have hplaced := (ordered_of_run hbefore).placed
    cases hstep with
    | receives hshutdown =>
      obtain ⟨hstage, _, hinstalled⟩ := hplaced.of_running (by rw [hshutdown]; nofun)
        (by rw [hshutdown]; nofun)
      refine ⟨hinstalled, ?_, nofun⟩
      intro step hstarting
      cases hstage.symm.trans hstarting
  have hquiet := hheard.leaveOut hafterwards s₂.unread
  rw [← hafter] at hquiet
  obtain ⟨unread, hloud⟩ := hheard.putIn hquiet s₂.unread
  exact ⟨_, Trace.append_iff.mpr ⟨s₁, hbefore, .cons hstep hloud⟩, rfl⟩

/-- The shutdown of every run of `serve` is orderly. -/
theorem shutdown_orderly (telemetry : Telemetry) (labels : List Label) (s : State)
    (hrun : Run telemetry labels s) : OrderlyShutdown telemetry labels s := by
  have hordered := ordered_of_run hrun
  refine ⟨hordered.scheduled.2.firstPhases, ?_, ?_, ?_, ?_, ?_, hordered.handed.early, ?_, ?_⟩
  · intro before signal after after' hlabels hafter
    rw [hlabels] at hrun
    exact later_signals hrun hafter
  · intro label s' hstep haccepting hstopped
    apply hordered.scheduled.completed
    cases hstep with
    | stops _ hshutdown => exact hshutdown
    | expires _ hdrain =>
      exact hordered.scheduled.2.completed_of_sender (Or.inr (by rw [hdrain]; nofun))
    | tick | arrives | kills | starts | startFails | receives | reports | delays | sends | drops
      | wakes | accepts | completes | serves | servingFails | shutsDown | returns =>
      cases haccepting.symm.trans hstopped
    | listens => cases hstopped
  · intro s' hstep hinFlight
    cases hstep with
    | returns hstage =>
      rcases hordered.finished (by rw [hstage]; nofun) (by rw [hstage]; nofun)
        (by rw [hstage]; nofun) with hzero | hdrained
      · omega
      · exact hdrained
  · intro s' hstep
    cases hstep with
    | expires _ hdrain =>
      have hcompleted := hordered.scheduled.2.completed_of_sender (Or.inr (by rw [hdrain]; nofun))
      obtain ⟨_, signal, _, hreceives, _⟩ := hordered.scheduled.completed hcompleted
      exact ⟨signal, hordered.arrived signal (Or.inr hreceives)⟩
  · intro s' hstep
    cases hstep with
    | shutsDown hstage => exact hordered.handed.served hstage
  · intro result hstage exporter
    have hwhole := hordered.handed.whole
    rw [(hordered.handed.returned result hstage).1] at hwhole
    have hexported : s.exported = telemetry.drop := by
      rw [← hwhole]
      exact (List.append_nil _).symm
    rw [hexported]
    exact telemetry.count_drop exporter
  · intro hstage
    exact (hordered.handed.returned _ hstage).2 rfl

/-- SIGTERM while a request is in flight that does not end, and SIGINT in the delay. -/
def timedOut : List Label :=
  [.starts true, .starts true, .starts true, .starts true, .starts true, .accepts,
    .arrives .terminate, .receives .terminate, .reports, .delays, .arrives .interrupt,
    .tick (fromSecs 5), .sends, .stops, .wakes, .tick (fromSecs 10), .expires, .shutsDown, .returns]

theorem timedOut_runs (telemetry : Telemetry) : ∃ s, Run telemetry timedOut s := by
  apply Exists.intro
  apply Trace.cons (Step.starts rfl rfl)
  apply Trace.cons (Step.starts rfl rfl)
  apply Trace.cons (Step.starts rfl rfl)
  apply Trace.cons (Step.starts rfl rfl)
  apply Trace.cons (Step.listens rfl rfl)
  apply Trace.cons (Step.accepts rfl rfl)
  apply Trace.cons (Step.arrives rfl)
  apply Trace.cons (Step.receives rfl rfl)
  apply Trace.cons (Step.reports rfl)
  apply Trace.cons (Step.delays rfl)
  apply Trace.cons (Step.arrives rfl)
  apply Trace.cons (Step.tick _ _)
  apply Trace.cons (Step.sends rfl (Nat.le_refl _))
  apply Trace.cons (Step.stops rfl rfl rfl)
  apply Trace.cons (Step.wakes rfl rfl (by intro h; cases h))
  apply Trace.cons (Step.tick _ _)
  apply Trace.cons (Step.expires rfl rfl (Nat.le_refl _))
  apply Trace.cons (Step.shutsDown rfl rfl)
  apply Trace.cons (Step.returns rfl)
  exact .nil _

theorem shutdown_orderly_timedOut : ∃ s,
    OrderlyShutdown ⟨some ⟨.ok (), .error "unreachable", .ok ()⟩⟩ timedOut s := by
  obtain ⟨s, hrun⟩ := timedOut_runs ⟨some ⟨.ok (), .error "unreachable", .ok ()⟩⟩
  exact ⟨s, shutdown_orderly _ timedOut s hrun⟩

end QuizArena.Server
