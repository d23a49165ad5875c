import QuizArena.Lib.Contract
import QuizArena.Service.Main

/-!
# The start of the service

The configuration alone decides what `main` is to do: it is the plan of the service. `main`
keeps to it call by call and leaves it at the first error, and on its way out shuts down the
exporters it has started.
-/

namespace QuizArena.Service

open Lib Config Kernel Server

/-! ## What a log shows -/

/-- Whether the call is on the way to serving. -/
def MainOp.starts : MainOp → Bool
  | .shutDown _ => false
  | .buildExporter _ _ _ | .buildProviders | .connect _ | .createSchema | .serve _ _ => true

def opOf (event : Event MainCalls) : MainOp := event.1

/-- The calls on the way to serving. -/
def started (log : List (Event MainCalls)) : List MainOp := (log.map opOf).filter MainOp.starts

/-- The error that an answer ends `main` with. -/
def failureOf : Event MainCalls → Option MainError
  | ⟨.buildExporter exporter _ _, .error message⟩ => some (.exporter exporter message)
  | ⟨.connect _, .error error⟩ => some (.database error)
  | ⟨.createSchema, .error error⟩ => some (.database error)
  | ⟨.serve _ _, (.error error, _)⟩ => some (.serve error)
  | _ => none

def failure (log : List (Event MainCalls)) : Option MainError := log.findSome? failureOf

def reportsOf : Event MainCalls → List Report
  | ⟨.shutDown report, _⟩ => [report]
  | ⟨.serve _ _, (_, reports)⟩ => reports
  | _ => []

/-- What has been shut down. -/
def reports (log : List (Event MainCalls)) : List Report := log.flatMap reportsOf

def providersOf : Event MainCalls → Option Providers
  | ⟨.buildProviders, providers⟩ => some providers
  | _ => none

/-- The handle over the providers that have been built. -/
def handle (log : List (Event MainCalls)) : Telemetry := ⟨log.findSome? providersOf⟩

/-! ## The plan -/

/-- An exporter is built for the protocol and with its endpoint. -/
def exportOp (config : TelemetryConfig) (exporter : Exporter) : MainOp :=
  .buildExporter exporter config.otlpProtocol
    (exporterEndpoint config.otlpProtocol config.otlpEndpoint exporter)

/-- The calls that `init` makes when none of them fails. -/
def exportOps (config : TelemetryConfig) : List MainOp :=
  if config.enabled then
    [exportOp config .traces, exportOp config .metrics, exportOp config .logs, .buildProviders]
  else
    []

/-- The calls that `compose` makes when none of them fails. -/
def composeOps (config : GreetConfig) : List MainOp :=
  [.connect (connectOptions config.databaseUrl), .createSchema]

/-- What `main` is to do with its sections: the calls that it makes as long as none fails, and
    the error that it ends with after them. -/
def planWith (config : TelemetryConfig) (handle : Telemetry) : Except SectionError ServerConfig →
    Except SectionError GreetConfig → List MainOp × Option MainError
  | .error error, _ => (exportOps config, some (.config error))
  | .ok _, .error error => (exportOps config, some (.config error))
  | .ok serverConfig, .ok greetConfig =>
    (exportOps config ++ (composeOps greetConfig ++ [.serve serverConfig.listenAddr handle]), none)

/-- What `main` is to do by its configuration, every section extracted alone. -/
def plan (deps : Externals Setting) (process : Process) (handle : Telemetry) :
    List MainOp × Option MainError :=
  match AppConfig.load process with
  | .error error => ([], some (.load error))
  | .ok app =>
    match typed telemetrySection TelemetryConfig.ofDatum (telemetry deps app).1 with
    | .error error => ([], some (.config error))
    | .ok config =>
      planWith config handle (typed serverSection ServerConfig.ofDatum (server deps app).1)
        (typed greetSectionName GreetConfig.ofDatum (greetSection deps app).1)

/-- The result of a run that meets the error, if it meets one. -/
def outcome : Option MainError → Except MainError Unit
  | none => .ok ()
  | some error => .error error

/-! ## The contract of `main` -/

section Logs

variable {log : List (Event MainCalls)} {event : Event MainCalls}

@[simp] theorem started_snoc : started (log ++ [event]) =
    started log ++ if (opOf event).starts then [opOf event] else [] := by
  unfold started
  rw [List.map_append, List.filter_append, List.map_singleton, List.filter_singleton]
  cases (opOf event).starts <;> rfl

@[simp] theorem failure_snoc : failure (log ++ [event]) = (failure log).or (failureOf event) := by
  simp [failure, List.findSome?_append]

@[simp] theorem reports_snoc : reports (log ++ [event]) = reports log ++ reportsOf event := by
  simp [reports]

@[simp] theorem handle_snoc :
    handle (log ++ [event]) = ⟨(handle log).providers.or (providersOf event)⟩ := by
  simp [handle, List.findSome?_append]

end Logs

/-- What may be asked for after a log. -/
structure Asks (plan : Telemetry → List MainOp × Option MainError) (log : List (Event MainCalls))
    (op : MainOp) : Prop where
  begun : started log ++ (if op.starts then [op] else []) <+: (plan (handle log)).1
  healthy : op.starts → failure log = none ∧ reports log = []
  shutDown : ∀ report, op = .shutDown report → reports log ++ [report] <+: (handle log).drop

/-- `serve` has shut the exporters of its handle down. -/
def Answers : Event MainCalls → Prop
  | ⟨.serve _ telemetry, (_, reports)⟩ => reports = telemetry.drop
  | _ => True

/-- The log of a run that is about to end with the result. -/
structure Leaving (plan : Telemetry → List MainOp × Option MainError)
    (log : List (Event MainCalls)) (result : Except MainError Unit) : Prop where
  begun : started log <+: (plan (handle log)).1
  finished : failure log = none → started log = (plan (handle log)).1
  result : result = outcome ((failure log).or (plan (handle log)).2)

/-- The log of a run that has ended with the result. -/
structure Ends (plan : Telemetry → List MainOp × Option MainError) (log : List (Event MainCalls))
    (result : Except MainError Unit) : Prop extends Leaving plan log result where
  reports : reports log = (handle log).drop

/-- Nothing has failed and nothing has been shut down. -/
structure Healthy (log : List (Event MainCalls)) (ops : List MainOp) (telemetry : Telemetry) :
    Prop where
  started : started log = ops
  handle : handle log = telemetry
  failure : failure log = none
  reports : reports log = []

/-- What a log is like when a part of `main` has ended: it goes on with what it has made, or
    leaves with an error. -/
def Continues {α : Type} (plan : Telemetry → List MainOp × Option MainError)
    (good : List (Event MainCalls) → α → Prop) (telemetry : Telemetry)
    (log : List (Event MainCalls)) : Except MainError α → Prop
  | .ok value => good log value
  | .error error => Leaving plan log (.error error) ∧ handle log = telemetry ∧ reports log = []

section Contract

variable {plan : Telemetry → List MainOp × Option MainError} {log : List (Event MainCalls)}
  {ops : List MainOp} {telemetry : Telemetry} {result : Except MainError Unit}

theorem Healthy.asks (h : Healthy log ops telemetry) {op : MainOp} (hop : op.starts)
    (hplan : ops ++ [op] <+: (plan telemetry).1) : Asks plan log op where
  begun := by
    rw [h.started, h.handle, if_pos hop]
    exact hplan
  healthy _ := ⟨h.failure, h.reports⟩
  shutDown report heq := by
    rw [heq] at hop
    cases hop

/-- A call that goes well. -/
theorem Healthy.snoc (h : Healthy log ops telemetry) {e : Event MainCalls}
    (hstarts : (opOf e).starts) (hok : failureOf e = none) (hreports : reportsOf e = [])
    (hproviders : providersOf e = none) :
    Healthy (log ++ [e]) (ops ++ [opOf e]) telemetry where
  started := by rw [started_snoc, h.started, if_pos hstarts]
  handle := by rw [handle_snoc, h.handle, hproviders, Option.or_none]
  failure := by rw [failure_snoc, h.failure, hok, Option.or_none]
  reports := by rw [reports_snoc, h.reports, hreports, List.append_nil]

/-- A call that fails. -/
theorem Healthy.leaving (h : Healthy log ops telemetry) {e : Event MainCalls}
    (hstarts : (opOf e).starts) {error : MainError} (herror : failureOf e = some error)
    (hproviders : providersOf e = none) (hplan : ops ++ [opOf e] <+: (plan telemetry).1) :
    Leaving plan (log ++ [e]) (.error error) where
  begun := by
    rw [started_snoc, h.started, if_pos hstarts, handle_snoc, h.handle, hproviders, Option.or_none]
    exact hplan
  finished hnone := by
    rw [failure_snoc, h.failure, herror] at hnone
    cases hnone
  result := by
    rw [failure_snoc, h.failure, herror]
    rfl

/-- A part of `main` ends with the error of its call. -/
theorem Healthy.fails {α : Type} {good : List (Event MainCalls) → α → Prop}
    (h : Healthy log ops telemetry) {e : Event MainCalls} (hstarts : (opOf e).starts)
    {error : MainError} (herror : failureOf e = some error) (hreports : reportsOf e = [])
    (hproviders : providersOf e = none) (hplan : ops ++ [opOf e] <+: (plan telemetry).1) :
    Continues plan good telemetry (log ++ [e]) (.error error) := by
  refine ⟨h.leaving hstarts herror hproviders hplan, ?_, ?_⟩
  · rw [handle_snoc, h.handle, hproviders, Option.or_none]
  · rw [reports_snoc, h.reports, hreports, List.append_nil]

theorem Asks.goesOn {op : MainOp} (h : Asks plan log op) (hop : op.starts) :
    started log ++ [op] <+: (plan (handle log)).1 := by
  have hbegun := h.begun
  rw [if_pos hop] at hbegun
  exact hbegun

/-- The plan ends here. -/
theorem Healthy.planned (h : Healthy log ops telemetry) {error : Option MainError}
    (hplan : plan telemetry = (ops, error)) : Leaving plan log (outcome error) where
  begun := by rw [h.started, h.handle, hplan]
  finished _ := by rw [h.started, h.handle, hplan]
  result := by
    rw [h.failure, h.handle, hplan]
    rfl

/-- The exporters are shut down one after another. -/
theorem meets_shutDowns {rest : List Report} (h : Leaving plan log result)
    (hrest : reports log ++ rest = (handle log).drop) :
    Prog.Meets (Asks plan) Answers (Ends plan)
      (rest.foldr (fun report rest => .call (S := MainCalls) (.shutDown report) fun _ => rest)
        (.pure result)) log := by
  induction rest generalizing log with
  | nil =>
    rw [List.append_nil] at hrest
    exact ⟨h, hrest⟩
  | cons report rest ih =>
    refine ⟨⟨?_, nofun, ?_⟩, ?_⟩
    · rw [if_neg nofun, List.append_nil]
      exact h.begun
    · intro report' heq
      cases heq
      exact ⟨rest, by rw [← hrest, List.append_assoc, List.singleton_append]⟩
    · intro reply _
      apply ih
      · refine ⟨?_, ?_, ?_⟩
        · simpa [opOf, MainOp.starts, providersOf] using h.begun
        · intro hnone
          rw [failure_snoc, show failureOf ⟨.shutDown report, reply⟩ = none from rfl,
            Option.or_none] at hnone
          simpa [opOf, MainOp.starts, providersOf] using h.finished hnone
        · simpa [failureOf, providersOf] using h.result
      · simpa [reportsOf, providersOf] using hrest

theorem meets_dropping (h : Leaving plan log result) (hhandle : handle log = telemetry)
    (hreports : reports log = []) :
    Prog.Meets (Asks plan) Answers (Ends plan) (dropping telemetry result) log := by
  apply meets_shutDowns h
  rw [hreports, hhandle, List.nil_append]

theorem nil_healthy : Healthy [] [] ⟨none⟩ := ⟨rfl, rfl, rfl, rfl⟩

/-- An exporter that is built, or whose error ends `main`. -/
theorem meets_buildExporter {config : TelemetryConfig} {exporter : Exporter}
    {rest : Unit → MainProg Telemetry} {good : List (Event MainCalls) → Telemetry → Prop}
    (h : Healthy log ops telemetry)
    (hplan : ops ++ [exportOp config exporter] <+: (plan telemetry).1)
    (hrest : ∀ log, Healthy log (ops ++ [exportOp config exporter]) telemetry →
      Prog.Meets (Asks plan) Answers (Continues plan good telemetry) (rest ()) log) :
    Prog.Meets (Asks plan) Answers (Continues plan good telemetry)
      (buildExporter config exporter rest) log := by
  refine ⟨h.asks rfl hplan, fun reply _ => ?_⟩
  cases reply with
  | ok => exact hrest _ (h.snoc (e := ⟨exportOp config exporter, .ok ()⟩) rfl rfl rfl rfl)
  | error message =>
    exact h.fails (e := ⟨exportOp config exporter, .error message⟩) rfl rfl rfl rfl hplan

theorem meets_init {config : TelemetryConfig}
    (hplan : ∀ telemetry, exportOps config <+: (plan telemetry).1) :
    Prog.Meets (Asks plan) Answers (Continues plan (fun log telemetry =>
      Healthy log (exportOps config) telemetry ∧ telemetry.isExporting = config.enabled) ⟨none⟩)
      (init config) [] := by
  unfold init
  unfold exportOps at hplan ⊢
  cases henabled : config.enabled with
  | false =>
    simp only [Bool.false_eq_true, if_false]
    exact ⟨nil_healthy, rfl⟩
  | true =>
    simp only [henabled, if_true] at hplan ⊢
    have hfirst (n : Nat) (telemetry : Telemetry) :=
      (List.take_prefix n _).trans (hplan telemetry)
    refine meets_buildExporter nil_healthy (hfirst 1 _) fun log htraces => ?_
    refine meets_buildExporter htraces (hfirst 2 _) fun log hmetrics => ?_
    refine meets_buildExporter hmetrics (hfirst 3 _) fun log hlogs => ?_
    refine ⟨hlogs.asks rfl (hfirst 4 _), fun providers _ => ⟨⟨?_, ?_, ?_, ?_⟩, rfl⟩⟩
    · rw [started_snoc, hlogs.started]
      rfl
    · rw [handle_snoc, hlogs.handle]
      rfl
    · rw [failure_snoc, hlogs.failure]
      rfl
    · rw [reports_snoc, hlogs.reports]
      rfl

theorem meets_compose {deps : Externals Setting} {app : AppConfig} (h : Healthy log ops telemetry)
    (hok : ∀ config, typed greetSectionName GreetConfig.ofDatum (greetSection deps app).1 =
      .ok config → ops ++ composeOps config <+: (plan telemetry).1)
    (herror : ∀ error, typed greetSectionName GreetConfig.ofDatum (greetSection deps app).1 =
      .error error → plan telemetry = (ops, some (.config error))) :
    Prog.Meets (Asks plan) Answers (Continues plan (fun log _ => ∃ config,
      typed greetSectionName GreetConfig.ofDatum (greetSection deps app).1 = .ok config ∧
        Healthy log (ops ++ composeOps config) telemetry) telemetry) (compose deps app) log := by
  unfold compose
  cases hconfig : typed greetSectionName GreetConfig.ofDatum (greetSection deps app).1 with
  | error error =>
    have hplan := herror error hconfig
    exact ⟨h.planned hplan, h.handle, h.reports⟩
  | ok config =>
    have hplan := hok config hconfig
    have hconnect : ops ++ [.connect (connectOptions config.databaseUrl)] <+:
        (plan telemetry).1 := (List.prefix_append_right_inj ops).mpr (List.take_prefix 1 _)
          |>.trans hplan
    refine ⟨h.asks rfl hconnect, fun reply _ => ?_⟩
    cases reply with
    | error error =>
      exact h.fails (e := ⟨.connect _, .error error⟩) rfl rfl rfl rfl hconnect
    | ok =>
      have h' := h.snoc (e := ⟨.connect (connectOptions config.databaseUrl), .ok ()⟩)
        rfl rfl rfl rfl
      have hschema : (ops ++ [.connect (connectOptions config.databaseUrl)]) ++ [.createSchema] <+:
          (plan telemetry).1 := by
        rw [List.append_assoc]
        exact hplan
      refine ⟨h'.asks rfl hschema, fun reply _ => ?_⟩
      cases reply with
      | error error =>
        exact h'.fails (e := ⟨.createSchema, .error error⟩) rfl rfl rfl rfl hschema
      | ok =>
        refine ⟨config, rfl, ?_⟩
        have h'' := h'.snoc (e := ⟨.createSchema, .ok ()⟩) rfl rfl rfl rfl
        rw [List.append_assoc ops] at h''
        exact h''

/-- The server, which shuts the exporters down itself. -/
theorem meets_serve {addr : SocketAddr} (h : Healthy log ops telemetry)
    (hplan : plan telemetry = (ops ++ [.serve addr telemetry], none)) :
    Prog.Meets (Asks plan) Answers (Ends plan)
      (Prog.bind (.perform (S := MainCalls) (.serve addr telemetry))
        fun out => .pure (out.1.mapError .serve)) log := by
  refine ⟨h.asks rfl (by rw [hplan]), fun reply hreply => ?_⟩
  obtain ⟨result, exported⟩ := reply
  have hexported : exported = telemetry.drop := hreply
  have hhandle : handle (log ++ [⟨.serve addr telemetry, (result, exported)⟩]) = telemetry := by
    rw [handle_snoc, h.handle]
    exact congrArg Telemetry.mk (Option.or_none)
  have hreports : reports (log ++ [⟨.serve addr telemetry, (result, exported)⟩]) =
      (handle (log ++ [⟨.serve addr telemetry, (result, exported)⟩])).drop := by
    rw [hhandle, reports_snoc, h.reports]
    exact hexported
  cases result with
  | error error =>
    refine ⟨h.leaving (e := ⟨.serve addr telemetry, (.error error, exported)⟩) rfl rfl rfl ?_,
      hreports⟩
    rw [hplan]
    exact List.prefix_rfl
  | ok =>
    have hstarted : started (log ++ [⟨.serve addr telemetry, (.ok (), exported)⟩]) =
        ops ++ [.serve addr telemetry] := by
      rw [started_snoc, h.started]
      rfl
    refine ⟨⟨?_, ?_, ?_⟩, hreports⟩
    · rw [hstarted, hhandle, hplan]
    · intro _
      rw [hstarted, hhandle, hplan]
    · rw [failure_snoc, h.failure, hhandle, hplan]
      rfl

end Contract

/-! ## The sections of one configuration -/

theorem new_of_load {process : Process} {app : AppConfig}
    (h : AppConfig.load process = .ok app) : ∃ tree, app = .new tree (snapshot process) := by
  unfold AppConfig.load at h
  cases hpath : unicodeVar process configPathVar with
  | error error => rw [hpath] at h; cases h
  | ok explicitPath =>
    rw [hpath] at h
    simp only [bind, Except.bind] at h
    split at h
    · cases h
    · split at h
      · cases h
      · split at h
        · cases h
        · cases h
          exact ⟨_, rfl⟩

/-- The sections of the service do not get into each other's way. -/
theorem sections_apart (deps : Externals Setting) {process : Process} {app : AppConfig}
    (h : AppConfig.load process = .ok app) :
    (server deps (telemetry deps app).2).1 = (server deps app).1 ∧
      (greetSection deps (server deps (telemetry deps app).2).2).1 = (greetSection deps app).1 := by
  obtain ⟨tree, rfl⟩ := new_of_load h
  have hruns : runResults deps tree (snapshot process) serviceCalls =
      serviceCalls.map (aloneResult deps tree (snapshot process)) :=
    runResults_of_not_collide (not_collide_of_service deps.tables fun _ hcall => hcall)
  obtain ⟨_, hrest⟩ := List.cons.inj hruns
  obtain ⟨hserver, hrest⟩ := List.cons.inj hrest
  obtain ⟨hgreet, _⟩ := List.cons.inj hrest
  exact ⟨hserver, hgreet⟩

theorem exportOps_le_planWith {config : TelemetryConfig} {handle : Telemetry}
    {serverConfig : Except SectionError ServerConfig}
    {greetConfig : Except SectionError GreetConfig} :
    exportOps config <+: (planWith config handle serverConfig greetConfig).1 := by
  cases serverConfig with
  | error error => exact List.prefix_rfl
  | ok serverConfig =>
    cases greetConfig with
    | error error => exact List.prefix_rfl
    | ok greetConfig => exact List.prefix_append _ _

/-- A run that leaves before anything was asked for. -/
theorem ends_nil {plan : Telemetry → List MainOp × Option MainError} {error : MainError}
    (hplan : plan ⟨none⟩ = ([], some error)) : Ends plan [] (.error error) where
  begun := List.nil_prefix
  finished _ := by
    rw [show handle [] = ⟨none⟩ from rfl, hplan]
    rfl
  result := by
    rw [show handle [] = ⟨none⟩ from rfl, hplan]
    rfl
  reports := rfl

/-- `main` keeps to the plan of its configuration. -/
theorem main_meets (deps : Externals Setting) (process : Process) :
    Prog.Meets (Asks (plan deps process)) Answers (Ends (plan deps process))
      (main deps process) [] := by
  unfold main
  cases hload : AppConfig.load process with
  | error error =>
    exact ends_nil (by simp [plan, hload])
  | ok app =>
    obtain ⟨hserver, hgreet⟩ := sections_apart deps hload
    simp only
    cases htelemetry : typed telemetrySection TelemetryConfig.ofDatum (telemetry deps app).1 with
    | error error => exact ends_nil (by simp [plan, hload, htelemetry])
    | ok config =>
      have hplan : ∀ handle, plan deps process handle =
          planWith config handle (typed serverSection ServerConfig.ofDatum (server deps app).1)
            (typed greetSectionName GreetConfig.ofDatum (greetSection deps app).1) := by
        intro handle
        simp only [plan, hload, htelemetry]
      have hexports : ∀ handle, exportOps config <+: (plan deps process handle).1 := by
        intro handle
        rw [hplan]
        exact exportOps_le_planWith
      refine (meets_init hexports).orReturn ?_ ?_
      · intro log telemetry hgood
        obtain ⟨hhealthy, _⟩ := hgood
        simp only [hserver]
        cases hserverConfig : typed serverSection ServerConfig.ofDatum (server deps app).1 with
        | error error =>
          rw [hserverConfig] at hplan
          exact meets_dropping (hhealthy.planned (hplan telemetry)) hhealthy.handle
            hhealthy.reports
        | ok serverConfig =>
          rw [hserverConfig] at hplan
          refine (meets_compose hhealthy ?_ ?_).bind ?_
          · intro greetConfig hgreetConfig
            rw [hgreet] at hgreetConfig
            rw [hplan, hgreetConfig]
            exact (List.prefix_append_right_inj _).mpr (List.prefix_append _ _)
          · intro error hgreetConfig
            rw [hgreet] at hgreetConfig
            rw [hplan, hgreetConfig]
            rfl
          · intro log result hcomposed
            cases result with
            | error error =>
              obtain ⟨hleaving, hhandle, hreports⟩ := hcomposed
              exact meets_dropping hleaving hhandle hreports
            | ok =>
              obtain ⟨greetConfig, hgreetConfig, hhealthy⟩ := hcomposed
              rw [hgreet] at hgreetConfig
              rw [hgreetConfig] at hplan
              refine meets_serve hhealthy ?_
              rw [hplan, List.append_assoc]
              rfl
      · intro log error hleaving
        obtain ⟨hleaving, hhandle, hreports⟩ := hleaving
        exact ⟨hleaving, by rw [hreports, hhandle]; rfl⟩

end QuizArena.Service
