import QuizArena.Config.Load
import QuizArena.Kernel.RepositoryError
import QuizArena.Lib.Prog
import QuizArena.Lib.Transition
import QuizArena.Server.Exported
import QuizArena.Server.Serve
import QuizArena.Service.Settings

/-!
# The life of the service

`main` as a program: it loads the configuration, starts the exporters, connects to the
database and creates the schema, and then serves. A `?` ends it, and drops the telemetry
handle if there is one by then. The server runs as `Serve` has it, step by step, while
`main` waits for it.
-/

namespace QuizArena.Service

open Lib Config Kernel Server

/-- What `main` fails with. -/
inductive MainError where
  | load (error : LoadError)
  | config (error : SectionError)
  | exporter (exporter : Exporter) (message : String)
  | database (error : DbErr)
  | serve (error : ServeError)

/-- `ConnectOptions`, as far as `compose` sets it; an unset time is the library's. Slow
    statements are logged at a level of their own, from a time on. -/
structure ConnectOptions where
  url : String
  sqlxLoggingLevel : LevelFilter
  sqlxSlowStatements : LevelFilter × Nat
  idleTimeout : Option (Option Nat)
  maxLifetime : Option (Option Nat)
  deriving DecidableEq

/-- The options that `compose` connects with. A pool of SQLite never closes a connection, as
    one in memory would take the database with it. -/
def connectOptions (url : String) : ConnectOptions :=
  let options : ConnectOptions := {
    url
    sqlxLoggingLevel := .upTo .debug
    sqlxSlowStatements := (.upTo .warn, fromSecs 1)
    idleTimeout := none
    maxLifetime := none }
  if "sqlite".toList <+: url.toList then
    { options with idleTimeout := some none, maxLifetime := some none }
  else
    options

/-- What `main` asks of the outside. -/
inductive MainOp where
  | buildExporter (exporter : Exporter) (protocol : OtlpProtocol) (endpoint : String)
  /-- The providers are built and registered. -/
  | buildProviders
  | connect (options : ConnectOptions)
  | createSchema
  | serve (addr : SocketAddr) (telemetry : Telemetry)
  | shutDown (report : Report)

/-- The calls with their answers. `serve` is answered with its result and with what it has
    shut down of the handle it was given. -/
def MainCalls : Signature where
  Op := MainOp
  Reply
    | .buildExporter _ _ _ => Except String Unit
    | .buildProviders => Providers
    | .connect _ | .createSchema => Except DbErr Unit
    | .serve _ _ => Except ServeError Unit × List Report
    | .shutDown _ => Unit

/-- A part of `main`. -/
abbrev MainProg (α : Type) := Prog MainCalls (Except MainError α)

/-! ## The sections, typed -/

def ServerConfig.ofDatum : Datum Setting → Option ServerConfig
  | .record [("listen_addr", .leaf (.addr listenAddr))] => some ⟨listenAddr⟩
  | _ => none

def TelemetryConfig.ofDatum : Datum Setting → Option TelemetryConfig
  | .record [("enabled", .leaf (.flag enabled)), ("otlp_endpoint", .leaf (.text otlpEndpoint)),
      ("otlp_protocol", .leaf (.protocol otlpProtocol))] =>
    some ⟨enabled, otlpEndpoint, otlpProtocol⟩
  | _ => none

def GreetConfig.ofDatum : Datum Setting → Option GreetConfig
  | .record [("database_url", .leaf (.text databaseUrl))] => some ⟨databaseUrl⟩
  | _ => none

/-- The section as a value of its type. `from_value` makes no other. -/
def typed {α : Type} (name : String) (ofDatum : Datum Setting → Option α) :
    Except SectionError (Datum Setting) → Except SectionError α
  | .ok datum =>
    match ofDatum datum with
    | some config => .ok config
    | none => .error (.invalid name [] "the value is not of the type")
  | .error error => .error error

/-! ## The program -/

/-- The `build` of an exporter with its `?`. -/
def buildExporter (config : TelemetryConfig) (exporter : Exporter)
    (rest : Unit → MainProg Telemetry) : MainProg Telemetry :=
  Prog.orReturn (.exporter exporter)
    (.perform (S := MainCalls) (.buildExporter exporter config.otlpProtocol
      (exporterEndpoint config.otlpProtocol config.otlpEndpoint exporter))) rest

/-- `init`. -/
def init (config : TelemetryConfig) : MainProg Telemetry :=
  if config.enabled then
    buildExporter config .traces fun _ =>
    buildExporter config .metrics fun _ =>
    buildExporter config .logs fun _ =>
    Prog.bind (.perform (S := MainCalls) .buildProviders) fun providers =>
      .pure (.ok ⟨some providers⟩)
  else
    .pure (.ok ⟨none⟩)

/-- `compose`, up to the handler that it makes of the database. -/
def compose (deps : Externals Setting) (app : AppConfig) : MainProg Unit :=
  match typed greetSectionName GreetConfig.ofDatum (greetSection deps app).1 with
  | .error error => .pure (.error (.config error))
  | .ok config =>
    let options := connectOptions config.databaseUrl
    Prog.orReturn .database (.perform (S := MainCalls) (.connect options)) fun _ =>
    Prog.orReturn .database (.perform (S := MainCalls) .createSchema) fun _ =>
    .pure (.ok ())

/-- The handle is dropped on the way out. -/
def dropping (telemetry : Telemetry) (result : Except MainError Unit) : MainProg Unit :=
  telemetry.drop.foldr (fun report rest => .call (S := MainCalls) (.shutDown report) fun _ => rest)
    (.pure result)

/-- `main`. -/
def main (deps : Externals Setting) (process : Process) : MainProg Unit :=
  match AppConfig.load process with
  | .error error => .pure (.error (.load error))
  | .ok app =>
    let (config, app) := telemetry deps app
    match typed telemetrySection TelemetryConfig.ofDatum config with
    | .error error => .pure (.error (.config error))
    | .ok config =>
      Prog.orReturn id (init config) fun telemetry =>
        let (config, app) := server deps app
        match typed serverSection ServerConfig.ofDatum config with
        | .error error => dropping telemetry (.error (.config error))
        | .ok config =>
          Prog.bind (compose deps app) fun
            | .error error => dropping telemetry (.error error)
            | .ok _ =>
              Prog.bind (.perform (S := MainCalls) (.serve config.listenAddr telemetry))
                fun out => .pure (out.1.mapError .serve)

/-- A running service: what is left of `main`, the calls that it has made, and the server
    while it waits for it. -/
structure Running where
  program : MainProg Unit
  log : List (Event MainCalls)
  server : Option Server.State

/-- The service is started. -/
def Running.start (deps : Externals Setting) (process : Process) : Running :=
  ⟨main deps process, [], none⟩

inductive RunningLabel where
  | performs (event : Event MainCalls)
  | calls
  | serves (label : Server.Label)
  | returns

inductive RunningStep : Running → RunningLabel → Running → Prop where
  | performs {r : Running} {event : Event MainCalls} {program : MainProg Unit} :
      Prog.Step r.program event program → (∀ addr telemetry, event.1 ≠ .serve addr telemetry) →
      RunningStep r (.performs event) ⟨program, r.log ++ [event], r.server⟩
  | calls {r : Running} {addr : SocketAddr} {telemetry : Telemetry}
      {next : MainCalls.Reply (.serve addr telemetry) → MainProg Unit} :
      r.program = .call (S := MainCalls) (.serve addr telemetry) next → r.server = none →
      RunningStep r .calls { r with server := some (.start telemetry) }
  | serves {r : Running} {s s' : Server.State} {label : Server.Label} : r.server = some s →
      Server.Step s label s' → RunningStep r (.serves label) { r with server := some s' }
  | returns {r : Running} {addr : SocketAddr} {telemetry : Telemetry} {s : Server.State}
      {next : MainCalls.Reply (.serve addr telemetry) → MainProg Unit}
      {result : Except ServeError Unit} :
      r.program = .call (S := MainCalls) (.serve addr telemetry) next → r.server = some s →
      s.stage = .returned result →
      RunningStep r .returns
        ⟨next (result, s.exported), r.log ++ [⟨.serve addr telemetry, (result, s.exported)⟩], none⟩

end QuizArena.Service
