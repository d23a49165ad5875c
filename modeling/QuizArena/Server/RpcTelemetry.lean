import Mathlib.Data.Finset.Dedup
import Mathlib.Data.Finset.Image
import QuizArena.Lib.Separators
import QuizArena.Server.Telemetry

/-!
# Spans and metrics of the RPCs

The middlewares of `otel_http_layers` around the router that `serve` builds, and the
interceptor that records how an RPC ended. A request is served in a state that keeps
the spans opened so far and the paths measured so far, beside that of the service
itself. The request extensions are kept as the entry of the span and the rest of them;
a span is known there by its number. A span that `RUST_LOG` does not let through is
disabled and has no number, and what is recorded on it is lost.
-/

namespace QuizArena.Server

open Lib

variable {Ctx Ext Body Reply τ ε : Type}

/-! ## Paths -/

/-- `is_tooling`. -/
def isTooling (path : String) : Bool :=
  "/grpc.reflection.".toList.isPrefixOf path.toList || "/grpc.health.".toList.isPrefixOf path.toList

/-- `TracedPaths`. -/
structure TracedPaths where
  paths : Finset String

/-- `TracedPaths::contains`. -/
def TracedPaths.contains (traced : TracedPaths) (path : String) : Bool :=
  decide (path ∈ traced.paths) && !isTooling path

/-- `rpc_path`: service and method. -/
def rpcPath (path : String) : Option (String × String) :=
  match path.toList with
  | '/' :: rest =>
    (splitOnce '/' rest).map fun parts => (String.ofList parts.1, String.ofList parts.2)
  | _ => none

/-- A name that `ConnectRouter::methods` yields. -/
structure RpcName where
  service : String
  method : String
  plain : '/' ∉ service.toList

/-- `package.Service/Method`. -/
def RpcName.text (name : RpcName) : String := name.service ++ "/" ++ name.method

/-- The `rpc_paths` of `serve`. -/
def rpcPaths (methods : List RpcName) : Finset String :=
  (methods.map fun name => "/" ++ name.text).toFinset

/-! ## Spans -/

/-- The server span of an RPC. The fields that may stay empty are recorded later. -/
structure Span (Ctx : Type) where
  otelName : String
  otelKind : String
  otelStatusCode : Option String
  rpcSystemName : String
  rpcResponseStatusCode : Option String
  rpcMethod : String
  errorType : Option String
  httpRequestMethod : String
  urlPath : String
  httpResponseStatusCode : Option Nat
  parent : Ctx

/-- A field recorded on a span. -/
inductive Record where
  | httpResponseStatusCode (status : Nat)
  | otelStatusCode (code : String)
  | rpcResponseStatusCode (code : String)
  | errorType (code : String)
  deriving DecidableEq, Repr

/-- `Span::record`. -/
def Span.record (span : Span Ctx) : Record → Span Ctx
  | .httpResponseStatusCode status => { span with httpResponseStatusCode := some status }
  | .otelStatusCode code => { span with otelStatusCode := some code }
  | .rpcResponseStatusCode code => { span with rpcResponseStatusCode := some code }
  | .errorType code => { span with errorType := some code }

/-! ## Requests and services -/

abbrev Headers := List (String × String)

/-- The request extensions: the span under `RpcSpan`, by its number unless it is disabled,
    and all the other entries. -/
structure Extensions (Ext : Type) where
  rpcSpan : Option (Option Nat)
  others : Ext

/-- `rpc_span`. -/
def rpcSpan (extensions : Extensions Ext) : Option Nat := extensions.rpcSpan.join

structure Request (Ext Body : Type) where
  method : String
  path : String
  headers : Headers
  extensions : Extensions Ext
  body : Body

/-- The insertion of `RpcSpan` into the extensions. -/
def Request.insertSpan (request : Request Ext Body) (span : Option Nat) : Request Ext Body :=
  { request with extensions := { request.extensions with rpcSpan := some span } }

@[simp] theorem Request.insertSpan_path (request : Request Ext Body) (span : Option Nat) :
    (request.insertSpan span).path = request.path := rfl

@[simp] theorem rpcSpan_insertSpan (request : Request Ext Body) (span : Option Nat) :
    rpcSpan (request.insertSpan span).extensions = span := rfl

structure Response (Reply : Type) where
  status : Nat
  headers : Headers
  body : Reply

/-- What requests have left behind: the spans opened, the paths measured and the state
    of the service. -/
structure Traffic (Ctx τ : Type) where
  spans : List (Span Ctx)
  measured : List String
  service : τ

/-- `info_span!`. A span has the number of those opened before it, unless the `env_filter`
    of `init` disables it. -/
def Traffic.openSpan (traffic : Traffic Ctx τ) (envFilter : Span Ctx → Bool) (span : Span Ctx) :
    Option Nat × Traffic Ctx τ :=
  if envFilter span then
    (some traffic.spans.length, { traffic with spans := traffic.spans ++ [span] })
  else
    (none, traffic)

/-- A record on a span, which is lost when the span is disabled. -/
def Traffic.record (traffic : Traffic Ctx τ) (span : Option Nat) (field : Record) :
    Traffic Ctx τ :=
  match span with
  | some number =>
    { traffic with spans := traffic.spans.modify number fun span => span.record field }
  | none => traffic

/-- The records of a list, the first one first. -/
def Traffic.recordAll (traffic : Traffic Ctx τ) (span : Option Nat) (fields : List Record) :
    Traffic Ctx τ :=
  fields.foldl (fun traffic field => traffic.record span field) traffic

/-- `tower::Service::call`, by the answer and what it leaves. -/
abbrev Service (Ctx Ext Body Reply τ ε : Type) :=
  Request Ext Body → Traffic Ctx τ → Except ε (Response Reply) × Traffic Ctx τ

/-! ## The span layer -/

/-- `TraceContextPropagator`. A span's context is that of its number under its parent; a
    disabled span has none. -/
structure Propagator (Ctx : Type) where
  extract : Headers → Ctx
  inject : Option (Nat × Ctx) → Headers → Headers

/-- `StatusCode::is_server_error`. -/
def isServerError (status : Nat) : Bool := 500 ≤ status && status < 600

/-- `ConnectSpanLayer`. -/
structure ConnectSpanLayer where
  traced : TracedPaths

namespace ConnectSpanLayer

/-- The span that `ConnectSpanService::call` makes for a request. -/
def spanFor (layer : ConnectSpanLayer) (propagator : Propagator Ctx) (request : Request Ext Body) :
    Option (Span Ctx) :=
  let rpc := if layer.traced.contains request.path then rpcPath request.path else none
  rpc.map fun (service, method) => {
    otelName := service ++ "/" ++ method
    otelKind := "server"
    otelStatusCode := none
    rpcSystemName := "connectrpc"
    rpcResponseStatusCode := none
    rpcMethod := service ++ "/" ++ method
    errorType := none
    httpRequestMethod := request.method
    urlPath := request.path
    httpResponseStatusCode := none
    parent := propagator.extract request.headers }

/-- What is recorded of a response. -/
def responseRecords (response : Response Reply) : List Record :=
  .httpResponseStatusCode response.status ::
    if isServerError response.status then [.otelStatusCode "ERROR"] else []

/-- `ConnectSpanService::call`. -/
def call (layer : ConnectSpanLayer) (envFilter : Span Ctx → Bool) (propagator : Propagator Ctx)
    (inner : Service Ctx Ext Body Reply τ ε) : Service Ctx Ext Body Reply τ ε :=
  fun request traffic =>
    match layer.spanFor propagator request with
    | none => inner request traffic
    | some span =>
      let (handle, traffic) := traffic.openSpan envFilter span
      match inner (request.insertSpan handle) traffic with
      | (.error error, traffic) => (.error error, traffic)
      | (.ok response, traffic) =>
        let context := handle.map fun number => (number, span.parent)
        (.ok { response with headers := propagator.inject context response.headers },
          traffic.recordAll handle (responseRecords response))

end ConnectSpanLayer

/-! ## The metrics layer -/

/-- `HttpMetricsLayer`, with the skipper it is built with. -/
structure HttpMetricsLayer where
  skips : String → Bool

/-- A request whose path is not skipped is measured once it has been answered. -/
def HttpMetricsLayer.call (layer : HttpMetricsLayer) (inner : Service Ctx Ext Body Reply τ ε) :
    Service Ctx Ext Body Reply τ ε :=
  fun request traffic =>
    if layer.skips request.path then inner request traffic
    else
      match inner request traffic with
      | (.error error, traffic) => (.error error, traffic)
      | (.ok response, traffic) =>
        (.ok response, { traffic with measured := traffic.measured ++ [request.path] })

/-- `Telemetry::otel_http_layers`. -/
def Telemetry.otelHttpLayers (telemetry : Telemetry) (rpcPaths : Finset String) :
    Option (ConnectSpanLayer × HttpMetricsLayer) :=
  telemetry.providers.map fun _ =>
    let traced : TracedPaths := ⟨rpcPaths⟩
    (⟨traced⟩, ⟨fun path => !traced.contains path⟩)

/-! ## The status interceptor -/

/-- `connectrpc::ErrorCode`. -/
inductive ErrorCode where
  | canceled | unknown | invalidArgument | deadlineExceeded | notFound | alreadyExists
  | permissionDenied | resourceExhausted | failedPrecondition | aborted | outOfRange
  | unimplemented | internal | unavailable | dataLoss | unauthenticated
  deriving DecidableEq, Repr

/-- `ErrorCode::as_str`. -/
def ErrorCode.asStr : ErrorCode → String
  | .canceled => "canceled"
  | .unknown => "unknown"
  | .invalidArgument => "invalid_argument"
  | .deadlineExceeded => "deadline_exceeded"
  | .notFound => "not_found"
  | .alreadyExists => "already_exists"
  | .permissionDenied => "permission_denied"
  | .resourceExhausted => "resource_exhausted"
  | .failedPrecondition => "failed_precondition"
  | .aborted => "aborted"
  | .outOfRange => "out_of_range"
  | .unimplemented => "unimplemented"
  | .internal => "internal"
  | .unavailable => "unavailable"
  | .dataLoss => "data_loss"
  | .unauthenticated => "unauthenticated"

/-- `server_fault`. -/
def serverFault : ErrorCode → Bool
  | .unknown | .deadlineExceeded | .unimplemented | .internal | .unavailable | .dataLoss => true
  | _ => false

/-- How the handling of an RPC ended. -/
inductive RpcOutcome where
  /-- connectrpc has refused the request ahead of the interceptors. -/
  | refused
  | unary (result : Except ErrorCode Unit)
  /-- A stream was established, or was not. -/
  | streaming (result : Except ErrorCode Unit)

/-- `record_rpc_error`. -/
def recordRpcError (code : ErrorCode) : List Record :=
  .rpcResponseStatusCode code.asStr ::
    if serverFault code then [.errorType code.asStr, .otelStatusCode "ERROR"] else []

/-- `RpcStatusInterceptor`: what it records of an outcome. -/
def interceptorRecords : RpcOutcome → List Record
  | .refused => []
  | .unary (.ok ()) => [.rpcResponseStatusCode "OK"]
  | .streaming (.ok ()) => []
  | .unary (.error code) | .streaming (.error code) => recordRpcError code

/-! ## The application -/

/-- The axum service of connectrpc with the interceptor, around the handlers. -/
def connectService
    (handle : Request Ext Body → τ → RpcOutcome × Response Reply × τ) :
    Service Ctx Ext Body Reply τ ε :=
  fun request traffic =>
    let (outcome, response, service) := handle request traffic.service
    (.ok response, { traffic with service := service }.recordAll (rpcSpan request.extensions)
      (interceptorRecords outcome))

/-- The router of `serve`: every mounted path goes to the service, any other to axum's
    fallback. -/
def router (paths : Finset String) (service : Service Ctx Ext Body Reply τ ε)
    (notFound : Response Reply) : Service Ctx Ext Body Reply τ ε :=
  fun request traffic =>
    if request.path ∈ paths then service request traffic else (.ok notFound, traffic)

/-- The `app` of `serve`. -/
def serveApp (telemetry : Telemetry) (methods : List RpcName) (envFilter : Span Ctx → Bool)
    (propagator : Propagator Ctx)
    (handle : Request Ext Body → τ → RpcOutcome × Response Reply × τ)
    (notFound : Response Reply) : Service Ctx Ext Body Reply τ ε :=
  let routes := router (rpcPaths methods) (connectService handle) notFound
  match telemetry.otelHttpLayers (rpcPaths methods) with
  | none => routes
  -- the first layer of the pair is the outer one
  | some (spans, metrics) => spans.call envFilter propagator (metrics.call routes)

/-- What a service leaves after a list of requests. -/
def serveAll (service : Service Ctx Ext Body Reply τ ε) :
    List (Request Ext Body) → Traffic Ctx τ → Traffic Ctx τ
  | [], traffic => traffic
  | request :: requests, traffic => serveAll service requests (service request traffic).2

end QuizArena.Server
