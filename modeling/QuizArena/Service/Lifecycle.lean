import QuizArena.Server.Shutdown
import QuizArena.Service.Startup

/-!
# The runs of the service

What holds of a service at every moment of its life: what it has started, what runs behind
the server, what has been shut down, and with which result it ends.
-/

namespace QuizArena.Service

open Lib Config Kernel Server

/-! ## Runs of the service -/

/-- What holds of a running service. -/
structure Invariant (deps : Externals Setting) (process : Process) (r : Running) : Prop where
  meets : Prog.Meets (Asks (plan deps process)) Answers (Ends (plan deps process)) r.program r.log
  server : ∀ s, r.server = some s → ∃ addr telemetry labels,
    r.program.asked = some (MainOp.serve addr telemetry) ∧ Server.Run telemetry labels s

theorem Invariant.start (deps : Externals Setting) (process : Process) :
    Invariant deps process (.start deps process) where
  meets := main_meets deps process
  server _ h := by cases h

theorem Invariant.step {deps : Externals Setting} {process : Process} {r r' : Running}
    {label : RunningLabel} (h : Invariant deps process r) (hstep : RunningStep r label r') :
    Invariant deps process r' := by
  cases hstep with
  | @performs event program hcall hserve =>
    refine ⟨h.meets.step hcall ?_, ?_⟩
    · obtain ⟨op, reply⟩ := event
      cases op with
      | serve addr telemetry => exact absurd rfl (hserve addr telemetry)
      | buildExporter | buildProviders | connect | createSchema | shutDown => trivial
    · intro s hserver
      obtain ⟨addr, telemetry, _, hasked, _⟩ := h.server s hserver
      rw [hcall.asked] at hasked
      exact absurd (Option.some.inj hasked) (hserve addr telemetry)
  | @calls addr telemetry next hprogram _ =>
    refine ⟨h.meets, ?_⟩
    intro s hserver
    cases hserver
    exact ⟨addr, telemetry, [], by rw [hprogram]; rfl, .nil _⟩
  | @serves s s' label hserver hstep =>
    refine ⟨h.meets, ?_⟩
    intro s'' hserver'
    cases hserver'
    obtain ⟨addr, telemetry, labels, hasked, hrun⟩ := h.server s hserver
    exact ⟨addr, telemetry, labels ++ [label], hasked,
      Trace.append_iff.mpr ⟨s, hrun, .cons hstep (.nil s')⟩⟩
  | @returns addr telemetry s next result hprogram hserver hstage =>
    obtain ⟨addr', telemetry', labels, hasked, hrun⟩ := h.server s hserver
    rw [hprogram] at hasked
    have hserves : MainOp.serve addr telemetry = .serve addr' telemetry' := Option.some.inj hasked
    obtain ⟨rfl, rfl⟩ := MainOp.serve.inj hserves
    have hmeets := h.meets
    rw [hprogram] at hmeets
    refine ⟨hmeets.2 (result, s.exported) ?_, fun _ hnone => by cases hnone⟩
    have hhanded := (ordered_of_run hrun).handed
    have hwhole := hhanded.whole
    rw [(hhanded.returned result hstage).1] at hwhole
    show s.exported = telemetry.drop
    rw [← hwhole]
    exact (List.append_nil _).symm

/-! ## The settings of a running service -/

section Settings

variable {deps : Externals Setting} {reader : SettingReader} {process : Process}
  {app : AppConfig}

end Settings

def refused : DbErr := .conn (.internal "refused")

end QuizArena.Service
