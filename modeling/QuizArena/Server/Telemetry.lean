/-!
# The telemetry handle

The exporters behind the handle are shut down by `shutdown` and by dropping it; the
providers are taken out the first time, so that the second one finds none.
-/

namespace QuizArena.Server

/-- The exporters, by their names in the warnings. -/
inductive Exporter where
  | traces
  | metrics
  | logs
  deriving DecidableEq, Repr

/-- An exporter is shut down; if that fails with an error, the error is logged. -/
structure Report where
  exporter : Exporter
  outcome : Except String Unit

/-- `Providers`, by what shutting each of them down comes to. -/
structure Providers where
  tracer : Except String Unit
  meter : Except String Unit
  logger : Except String Unit

/-- `Providers::shutdown`. A failure does not keep it from the next exporter. -/
def Providers.shutdown (providers : Providers) : List Report :=
  [⟨.traces, providers.tracer⟩, ⟨.metrics, providers.meter⟩, ⟨.logs, providers.logger⟩]

/-- `Telemetry`. -/
structure Telemetry where
  providers : Option Providers

namespace Telemetry

/-- `Telemetry::is_exporting`. -/
def isExporting (telemetry : Telemetry) : Bool := telemetry.providers.isSome

/-- `Telemetry::shutdown_providers`: the handle afterwards, and what was shut down. -/
def shutdownProviders (telemetry : Telemetry) : Telemetry × List Report :=
  match telemetry.providers with
  | some providers => (⟨none⟩, providers.shutdown)
  | none => (⟨none⟩, [])

/-- `Telemetry::drop`. -/
def drop (telemetry : Telemetry) : List Report := telemetry.shutdownProviders.2

/-- `Telemetry::shutdown`, which drops the handle at its end. -/
def shutdown (telemetry : Telemetry) : List Report :=
  let (telemetry, reports) := telemetry.shutdownProviders
  reports ++ telemetry.drop

/-- The explicit form does no more than dropping the handle. -/
theorem shutdown_eq_drop (telemetry : Telemetry) : telemetry.shutdown = telemetry.drop := by
  obtain ⟨providers⟩ := telemetry
  cases providers with
  | none => rfl
  | some providers => rfl

/-- Dropping the handle shuts every exporter down once if there are any. -/
theorem count_drop (telemetry : Telemetry) (exporter : Exporter) :
    (telemetry.drop.map Report.exporter).count exporter =
      if telemetry.isExporting then 1 else 0 := by
  obtain ⟨providers⟩ := telemetry
  cases providers with
  | none => rfl
  | some providers => cases exporter <;> rfl

end Telemetry

end QuizArena.Server
