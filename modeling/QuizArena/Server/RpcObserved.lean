import QuizArena.Server.RpcInterleaving

/-!
# What the spans tell of requests served at the same time

A span is read against the steps of its own request: the response status, the status of
the RPC, and whether the service is to blame. From the invariant of the run follows that
each span tells of its own request, in the order in which the requests came in, and that
the paths measured are those of the spans that bear a response status.
-/

namespace QuizArena.Server

open Lib

variable {ι Ctx Ext Body Reply τ ε : Type}

/-! ## How a span tells of its request -/

/-- The error that an RPC ended with. -/
def RpcOutcome.error : RpcOutcome → Option ErrorCode
  | .unary (.error code) | .streaming (.error code) => some code
  | .refused | .unary (.ok ()) | .streaming (.ok ()) => none

/-- The status that is known when an RPC has been handled. A stream that was established
    may still fail. -/
def RpcOutcome.status : RpcOutcome → Option String
  | .unary (.ok ()) => some "OK"
  | .unary (.error code) | .streaming (.error code) => some code.asStr
  | .refused | .streaming (.ok ()) => none

/-- The error of an RPC that the service is to blame for. -/
def RpcOutcome.fault (outcome : RpcOutcome) : Option ErrorCode := outcome.error.filter serverFault

/-- What a span says of the steps of its request. -/
structure Span.Tells (span : Span Ctx) (i : ι) (labels : List (RpcLabel ι Ext Body Reply)) :
    Prop where
  httpResponseStatusCode : ∀ status, span.httpResponseStatusCode = some status ↔
    ∃ path response, .answers i path response ∈ labels ∧ response.status = status
  rpcResponseStatusCode : ∀ code, span.rpcResponseStatusCode = some code ↔
    ∃ outcome response, .handles i outcome response ∈ labels ∧ outcome.status = some code
  errorType : ∀ text, span.errorType = some text ↔ ∃ outcome response code,
    .handles i outcome response ∈ labels ∧ outcome.fault = some code ∧ code.asStr = text
  otelStatusCode : ∀ text, span.otelStatusCode = some text ↔ text = "ERROR" ∧
    ((∃ outcome response, .handles i outcome response ∈ labels ∧ outcome.fault.isSome = true) ∨
      ∃ path response, .answers i path response ∈ labels ∧ isServerError response.status = true)

/-- A span on which nothing was recorded yet. -/
structure Span.Blank (span : Span Ctx) : Prop where
  httpResponseStatusCode : span.httpResponseStatusCode = none
  rpcResponseStatusCode : span.rpcResponseStatusCode = none
  errorType : span.errorType = none
  otelStatusCode : span.otelStatusCode = none

section Tells

variable {methods : List RpcName} {notFound : Response Reply} {span : Span Ctx} {i : ι}
  {request : Request Ext Body} {labels : List (RpcLabel ι Ext Body Reply)}

theorem Span.Blank.tells (h : span.Blank)
    (hhandles : ∀ outcome response, .handles i outcome response ∉ labels)
    (hanswers : ∀ path response, .answers i path response ∉ labels) : span.Tells i labels := by
  constructor
  · simp [h.httpResponseStatusCode, hanswers]
  · simp [h.rpcResponseStatusCode, hhandles]
  · simp [h.errorType, hhandles]
  · simp [h.otelStatusCode, hhandles, hanswers]

/-- What the interceptor records is the status of the RPC and its fault. -/
theorem Span.Blank.recordAll_interceptor (h : span.Blank) (outcome : RpcOutcome) :
    (span.recordAll (interceptorRecords outcome)).httpResponseStatusCode = none ∧
      (span.recordAll (interceptorRecords outcome)).rpcResponseStatusCode = outcome.status ∧
      (span.recordAll (interceptorRecords outcome)).errorType =
        outcome.fault.map ErrorCode.asStr ∧
      (span.recordAll (interceptorRecords outcome)).otelStatusCode =
        outcome.fault.map fun _ => "ERROR" := by
  obtain ⟨hhttp, hrpc, herror, hotel⟩ := h
  have hfailed : ∀ code, (span.recordAll (recordRpcError code)).httpResponseStatusCode = none ∧
      (span.recordAll (recordRpcError code)).rpcResponseStatusCode = some code.asStr ∧
      (span.recordAll (recordRpcError code)).errorType =
        ((some code).filter serverFault).map ErrorCode.asStr ∧
      (span.recordAll (recordRpcError code)).otelStatusCode =
        ((some code).filter serverFault).map fun _ => "ERROR" := by
    intro code
    cases hfault : serverFault code <;>
      simp [recordRpcError, hfault, Span.recordAll, Span.record, hhttp, herror, hotel]
  rcases outcome with _ | (code | ⟨⟩) | (code | ⟨⟩)
  · exact ⟨hhttp, hrpc, herror, hotel⟩
  · exact hfailed code
  · exact ⟨hhttp, rfl, herror, hotel⟩
  · exact hfailed code
  · exact ⟨hhttp, hrpc, herror, hotel⟩

theorem Span.Blank.tells_handled (h : span.Blank) (outcome : RpcOutcome)
    (response : Response Reply) :
    (span.recordAll (interceptorRecords outcome)).Tells i
      [.arrives i request, .handles i outcome response] := by
  obtain ⟨hhttp, hrpc, herror, hotel⟩ := h.recordAll_interceptor outcome
  constructor
  case httpResponseStatusCode => simp [hhttp]
  case rpcResponseStatusCode =>
    intro code
    rw [hrpc]
    constructor
    · intro hstatus
      exact ⟨outcome, response, by simp, hstatus⟩
    · intro htells
      obtain ⟨outcome', response', hmem, hstatus⟩ := htells
      simp only [List.mem_cons, reduceCtorEq, RpcLabel.handles.injEq, List.not_mem_nil, or_false,
        false_or] at hmem
      rw [← hmem.2.1]
      exact hstatus
  case errorType =>
    intro text
    rw [herror, Option.map_eq_some_iff]
    constructor
    · intro hfault
      obtain ⟨code, hfault, htext⟩ := hfault
      exact ⟨outcome, response, code, by simp, hfault, htext⟩
    · intro htells
      obtain ⟨outcome', response', code, hmem, hfault, htext⟩ := htells
      simp only [List.mem_cons, reduceCtorEq, RpcLabel.handles.injEq, List.not_mem_nil, or_false,
        false_or] at hmem
      rw [← hmem.2.1]
      exact ⟨code, hfault, htext⟩
  case otelStatusCode =>
    intro text
    rw [hotel]
    cases hfault : outcome.fault <;> simp [hfault, eq_comm (a := text)]

/-- The records of a response tell of the response, and keep what was said before. -/
theorem Span.Tells.answered (h : span.Tells i labels)
    (hanswers : ∀ path response, .answers i path response ∉ labels) (path : String)
    (response : Response Reply) :
    (span.recordAll (ConnectSpanLayer.responseRecords response)).Tells i
      (labels ++ [.answers i path response]) := by
  have hrecorded : (span.recordAll (ConnectSpanLayer.responseRecords response)) =
      { span with
        httpResponseStatusCode := some response.status
        otelStatusCode :=
          if isServerError response.status then some "ERROR" else span.otelStatusCode } := by
    unfold ConnectSpanLayer.responseRecords
    split <;> rfl
  rw [hrecorded]
  constructor
  case httpResponseStatusCode => simp [hanswers, eq_comm]
  case rpcResponseStatusCode => simpa using h.rpcResponseStatusCode
  case errorType => simpa using h.errorType
  case otelStatusCode =>
    intro text
    have hbefore := h.otelStatusCode text
    cases hserver : isServerError response.status with
    | false => simpa [hserver, hanswers] using hbefore
    | true =>
      show some "ERROR" = some text ↔ _
      constructor
      · intro heq
        rw [Option.some.injEq] at heq
        exact ⟨heq.symm, .inr ⟨path, response, by simp, hserver⟩⟩
      · intro htells
        rw [htells.1]

theorem Span.Tells.dropped (h : span.Tells i labels) : span.Tells i (labels ++ [.drops i]) := by
  constructor
  · simpa using h.httpResponseStatusCode
  · simpa using h.rpcResponseStatusCode
  · simpa using h.errorType
  · simpa using h.otelStatusCode

theorem Life.mem_arrives {stage : RpcStage Reply}
    (h : Life methods notFound i request stage labels) : .arrives i request ∈ labels := by
  induction h with
  | handling => simp
  | handled => simp
  | missed => simp
  | answered _ ih => exact List.mem_append_left _ ih
  | dropped _ _ ih => exact List.mem_append_left _ ih

theorem Life.arrives {stage : RpcStage Reply} (h : Life methods notFound i request stage labels)
    {request' : Request Ext Body} (hmem : .arrives i request' ∈ labels) : request' = request := by
  induction h with
  | handling => simpa using hmem
  | handled => simpa using hmem
  | missed => simpa using hmem
  | answered _ ih => exact ih (by simpa using hmem)
  | dropped _ _ ih => exact ih (by simpa using hmem)

/-- A request that is under way was not answered yet. -/
theorem Life.not_answers {stage : RpcStage Reply} (h : Life methods notFound i request stage labels)
    (hstage : stage ≠ .over) (path : String) (response : Response Reply) :
    .answers i path response ∉ labels := by
  cases h with
  | handling => simp
  | handled => simp
  | missed => simp
  | answered => exact absurd rfl hstage
  | dropped => exact absurd rfl hstage

/-- A span with the records of its request says what became of it. -/
theorem Life.tells {stage : RpcStage Reply} (h : Life methods notFound i request stage labels)
    (hblank : span.Blank) : (span.recordAll (labels.flatMap RpcLabel.records)).Tells i labels := by
  induction h with
  | handling => exact hblank.tells (by simp) (by simp)
  | handled outcome response _ =>
    have hrecords : ([.arrives i request, .handles i outcome response] :
        List (RpcLabel ι Ext Body Reply)).flatMap RpcLabel.records =
          interceptorRecords outcome := by
      simp [RpcLabel.records]
    rw [hrecords]
    exact hblank.tells_handled outcome response
  | missed => exact hblank.tells (by simp) (by simp)
  | answered hlife ih =>
    rw [List.flatMap_append, Span.recordAll_append, List.flatMap_singleton]
    exact ih.answered (hlife.not_answers (by simp)) _ _
  | dropped _ _ ih =>
    rw [List.flatMap_append, List.flatMap_singleton, RpcLabel.records, List.append_nil]
    exact ih.dropped

end Tells

/-! ## Every order of the requests -/

/-- A service with exporters traces the path. -/
def traces (telemetry : Telemetry) (methods : List RpcName) (path : String) : Bool :=
  telemetry.isExporting && TracedPaths.contains ⟨rpcPaths methods⟩ path

theorem traces_iff {telemetry : Telemetry} {methods : List RpcName} {path : String} :
    traces telemetry methods path = true ↔
      telemetry.isExporting = true ∧ ∃ name, Traced methods path name := by
  rw [traces, Bool.and_eq_true, contains_rpcPaths_iff]

/-- A request for a traced path is given a span, unless it is filtered out. -/
def spanned (telemetry : Telemetry) (methods : List RpcName) (envFilter : Span Ctx → Bool)
    (propagator : Propagator Ctx) (request : Request Ext Body) : Bool :=
  traces telemetry methods request.path &&
    (appSpan telemetry methods propagator request).any envFilter

/-- The request that comes in by a step, if it is given a span. -/
def RpcLabel.tracedRequest (telemetry : Telemetry) (methods : List RpcName)
    (envFilter : Span Ctx → Bool) (propagator : Propagator Ctx) :
    RpcLabel ι Ext Body Reply → Option (ι × Request Ext Body)
  | .arrives i request =>
    if spanned telemetry methods envFilter propagator request then some (i, request) else none
  | .handles .. | .misses _ | .answers .. | .drops _ => none

/-- The request that is answered by a step, with its path, if that is traced. -/
def RpcLabel.tracedAnswer (telemetry : Telemetry) (methods : List RpcName) :
    RpcLabel ι Ext Body Reply → Option (ι × String)
  | .answers i path _ => if traces telemetry methods path then some (i, path) else none
  | .arrives .. | .handles .. | .misses _ | .drops _ => none

theorem RpcLabel.tracedRequest_eq_some_iff {telemetry : Telemetry} {methods : List RpcName}
    {envFilter : Span Ctx → Bool} {propagator : Propagator Ctx}
    {label : RpcLabel ι Ext Body Reply} {entry : ι × Request Ext Body} :
    label.tracedRequest telemetry methods envFilter propagator = some entry ↔
      label = .arrives entry.1 entry.2 ∧
        spanned telemetry methods envFilter propagator entry.2 = true := by
  cases label <;> simp [tracedRequest, Prod.ext_iff]
  grind

theorem RpcLabel.tracedAnswer_eq_some_iff {telemetry : Telemetry} {methods : List RpcName}
    {label : RpcLabel ι Ext Body Reply} {entry : ι × String} :
    label.tracedAnswer telemetry methods = some entry ↔
      (∃ response, label = .answers entry.1 entry.2 response) ∧
        traces telemetry methods entry.2 = true := by
  cases label <;> simp [tracedAnswer, Prod.ext_iff]
  grind

/-- The requests that are given a span, as they came in. -/
def tracedRequests (telemetry : Telemetry) (methods : List RpcName) (envFilter : Span Ctx → Bool)
    (propagator : Propagator Ctx) (labels : List (RpcLabel ι Ext Body Reply)) :
    List (ι × Request Ext Body) :=
  labels.filterMap fun label => label.tracedRequest telemetry methods envFilter propagator

/-- The answers to requests for traced paths, each by the request and its path. -/
def tracedAnswers (telemetry : Telemetry) (methods : List RpcName)
    (labels : List (RpcLabel ι Ext Body Reply)) : List (ι × String) :=
  labels.filterMap fun label => label.tracedAnswer telemetry methods

/-- The span was opened for a request. -/
structure Span.For (propagator : Propagator Ctx) (name : RpcName) (request : Request Ext Body)
    (span : Span Ctx) : Prop where
  otelName : span.otelName = name.text
  rpcMethod : span.rpcMethod = name.text
  httpRequestMethod : span.httpRequestMethod = request.method
  urlPath : span.urlPath = request.path
  parent : span.parent = propagator.extract request.headers

theorem Span.For.recordAll {propagator : Propagator Ctx} {name : RpcName}
    {request : Request Ext Body} {span : Span Ctx} (h : span.For propagator name request)
    (fields : List Record) : (span.recordAll fields).For propagator name request := by
  induction fields generalizing span with
  | nil => exact h
  | cons field fields ih =>
    refine ih ?_
    obtain ⟨hname, hmethod, hhttp, hpath, hparent⟩ := h
    cases field <;> exact ⟨hname, hmethod, hhttp, hpath, hparent⟩

/-- The span layer makes a blank span for the request of a traced path, and none for
    another. -/
theorem appSpan_cases (telemetry : Telemetry) (methods : List RpcName) (propagator : Propagator Ctx)
    (request : Request Ext Body) :
    (traces telemetry methods request.path = true ∧ ∃ name span,
        Traced methods request.path name ∧
        appSpan telemetry methods propagator request = some span ∧
        span.For propagator name request ∧ span.Blank) ∨
      (traces telemetry methods request.path = false ∧
        appSpan telemetry methods propagator request = none) := by
  unfold appSpan
  cases hlayers : telemetry.otelHttpLayers (rpcPaths methods) with
  | none =>
    right
    have hexporting : telemetry.isExporting = false := by
      unfold Telemetry.otelHttpLayers at hlayers
      rw [Telemetry.isExporting, Option.map_eq_none_iff.mp hlayers]
      rfl
    rw [traces, hexporting]
    exact ⟨rfl, rfl⟩
  | some layers =>
    obtain ⟨hexporting, hspans, _⟩ := otelHttpLayers_eq_some_iff.mp hlayers
    rw [Option.bind_some, hspans]
    cases htraces : traces telemetry methods request.path with
    | true =>
      left
      obtain ⟨_, name, hname⟩ := traces_iff.mp htraces
      have hcontains := (contains_rpcPaths_iff methods request.path).mpr ⟨name, hname⟩
      have hpath : rpcPath request.path = some (name.service, name.method) := by
        rw [hname.2.2]
        exact rpcPath_slash_text name
      unfold ConnectSpanLayer.spanFor
      rw [if_pos hcontains, hpath]
      exact ⟨rfl, name, _, hname, rfl, ⟨rfl, rfl, rfl, rfl, rfl⟩, ⟨rfl, rfl, rfl, rfl⟩⟩
    | false =>
      right
      refine ⟨rfl, ConnectSpanLayer.spanFor_of_not_traced ?_ propagator⟩
      intro htraced
      rw [traces_iff.mpr ⟨hexporting, htraced⟩] at htraces
      cases htraces

/-- It is opened for the requests that are given a span. -/
theorem spanOf_cases (telemetry : Telemetry) (methods : List RpcName) (envFilter : Span Ctx → Bool)
    (propagator : Propagator Ctx) (request : Request Ext Body) :
    (spanned telemetry methods envFilter propagator request = true ∧ ∃ name span,
        Traced methods request.path name ∧
        spanOf telemetry methods envFilter propagator request = some span ∧
        span.For propagator name request ∧ span.Blank) ∨
      (spanned telemetry methods envFilter propagator request = false ∧
        spanOf telemetry methods envFilter propagator request = none) := by
  unfold spanned spanOf
  rcases appSpan_cases telemetry methods propagator request with
    ⟨htraces, name, span, hname, hspan, hfor, hblank⟩ | ⟨htraces, hspan⟩
  · rw [htraces, hspan]
    cases hfilter : envFilter span with
    | true => exact .inl ⟨by simp [hfilter], name, span, hname, by simp [hfilter], hfor, hblank⟩
    | false => exact .inr ⟨by simp [hfilter], by simp [hfilter]⟩
  · rw [htraces, hspan]
    exact .inr ⟨rfl, rfl⟩

theorem measures_eq_traces (telemetry : Telemetry) (methods : List RpcName) (path : String) :
    measures telemetry methods path = traces telemetry methods path := by
  unfold measures Telemetry.otelHttpLayers traces Telemetry.isExporting
  cases telemetry.providers with
  | none => rfl
  | some providers => simp

section Run

variable [DecidableEq ι] {telemetry : Telemetry} {methods : List RpcName}
  {envFilter : Span Ctx → Bool} {propagator : Propagator Ctx} {notFound : Response Reply}
  {labels : List (RpcLabel ι Ext Body Reply)} {s s' : Serving ι Ctx Ext Body Reply τ} {i : ι}

omit [DecidableEq ι] in
/-- The spans are those of the traced requests, one each. -/
theorem forall₂_opened (labels : List (RpcLabel ι Ext Body Reply)) :
    List.Forall₂ (fun (entry : ι × Request Ext Body) (entry' : ι × Span Ctx) =>
        entry'.1 = entry.1 ∧ .arrives entry.1 entry.2 ∈ labels ∧
          (∃ name, Traced methods entry.2.path name ∧ entry'.2.For propagator name entry.2) ∧
          entry'.2.Blank)
      (tracedRequests telemetry methods envFilter propagator labels)
      (opened telemetry methods envFilter propagator labels) := by
  suffices hparts : ∀ part : List (RpcLabel ι Ext Body Reply), (∀ label ∈ part, label ∈ labels) →
      List.Forall₂ _ (tracedRequests telemetry methods envFilter propagator part)
        (opened telemetry methods envFilter propagator part) from hparts labels fun _ h => h
  intro part hpart
  induction part with
  | nil => exact .nil
  | cons label part ih =>
    have hrest := ih fun other h => hpart other (List.mem_cons_of_mem _ h)
    unfold tracedRequests opened
    rw [List.filterMap_cons, List.flatMap_cons]
    cases label with
    | arrives i request =>
      rw [RpcLabel.tracedRequest]
      rcases spanOf_cases telemetry methods envFilter propagator request with
        ⟨htraces, name, span, hname, hspan, hfor, hblank⟩ | ⟨htraces, hspan⟩
      · simp only [RpcLabel.opens, htraces, if_true, hspan]
        exact .cons ⟨rfl, hpart _ List.mem_cons_self, ⟨name, hname, hfor⟩, hblank⟩ hrest
      · simp only [RpcLabel.opens, htraces, Bool.false_eq_true, if_false, hspan]
        exact hrest
    | handles => exact hrest
    | misses => exact hrest
    | answers => exact hrest
    | drops => exact hrest

/-- A request that has made a step is at some stage of its life. -/
theorem Told.life (h : Told telemetry methods envFilter propagator notFound labels s)
    {label : RpcLabel ι Ext Body Reply} (hlabel : label ∈ labels) :
    ∃ request stage,
      Life methods notFound label.process request stage (labelsOf label.process labels) := by
  have hof := mem_labelsOf hlabel
  cases hflight : s.flights label.process with
  | none =>
    rw [h.silent _ hflight] at hof
    cases hof
  | some flight =>
    obtain ⟨request, hlife, _⟩ := h.lives _ flight hflight
    exact ⟨request, flight.stage, hlife⟩

theorem Span.Tells.of_labelsOf {span : Span Ctx} (h : span.Tells i (labelsOf i labels)) :
    span.Tells i labels := by
  have hhandles : ∀ outcome (response : Response Reply),
      .handles i outcome response ∈ labelsOf i labels ↔ .handles i outcome response ∈ labels := by
    simp [labelsOf, RpcLabel.process]
  have hanswers : ∀ path (response : Response Reply),
      .answers i path response ∈ labelsOf i labels ↔ .answers i path response ∈ labels := by
    simp [labelsOf, RpcLabel.process]
  constructor
  · simpa only [hanswers] using h.httpResponseStatusCode
  · simpa only [hhandles] using h.rpcResponseStatusCode
  · simpa only [hhandles] using h.errorType
  · simpa only [hhandles, hanswers] using h.otelStatusCode

/-- Each span is for its request, and says what became of it. -/
theorem Told.tells (h : Told telemetry methods envFilter propagator notFound labels s) :
    List.Forall₂ (fun (entry : ι × Request Ext Body) (span : Span Ctx) =>
        (∃ name, Traced methods entry.2.path name ∧ span.For propagator name entry.2) ∧
          span.Tells entry.1 labels)
      (tracedRequests telemetry methods envFilter propagator labels) s.traffic.spans := by
  rw [h.spans, List.forall₂_map_right_iff]
  refine (forall₂_opened labels).imp ?_
  intro entry entry' hentry
  obtain ⟨hsame, harrives, ⟨name, hname, hfor⟩, hblank⟩ := hentry
  obtain ⟨request, stage, hlife⟩ := h.life harrives
  rw [hsame]
  exact ⟨⟨name, hname, hfor.recordAll _⟩, (hlife.tells hblank).of_labelsOf⟩

omit [DecidableEq ι] in
theorem Traffic.measured_recordAll (traffic : Traffic Ctx τ) (span : Option Nat)
    (fields : List Record) : (traffic.recordAll span fields).measured = traffic.measured :=
  (traffic.keeps_recordAll span fields).measured

/-- A path is measured when its request is answered. -/
theorem measured_step
    (h : s.traffic.measured = (tracedAnswers telemetry methods labels).map Prod.snd)
    {label : RpcLabel ι Ext Body Reply}
    (hstep : RpcStep telemetry methods envFilter propagator notFound s label s') :
    s'.traffic.measured = (tracedAnswers telemetry methods (labels ++ [label])).map Prod.snd := by
  have happend : tracedAnswers telemetry methods (labels ++ [label]) =
      tracedAnswers telemetry methods labels ++ tracedAnswers telemetry methods [label] :=
    List.filterMap_append
  rw [happend, List.map_append, ← h]
  cases hstep with
  | @arrives i request _ _ =>
    show (s.arrive telemetry methods envFilter propagator i request).traffic.measured = _ ++ []
    rw [List.append_nil, Serving.arrive]
    cases appSpan telemetry methods propagator request with
    | none => rfl
    | some span => exact (s.traffic.label_openSpan envFilter span).2
  | handles outcome response service _ _ =>
    show (Traffic.recordAll _ _ _).measured = _ ++ []
    rw [Traffic.measured_recordAll, List.append_nil]
  | misses _ _ => exact (List.append_nil _).symm
  | @answers i request response _ =>
    show (Traffic.recordAll _ _ _).measured = _
    rw [Traffic.measured_recordAll]
    rw [measures_eq_traces]
    unfold tracedAnswers RpcLabel.tracedAnswer
    cases htraces : traces telemetry methods request.path <;> simp [htraces]
  | drops _ _ => exact (List.append_nil _).symm

omit [DecidableEq ι] in
/-- The answers to a request are those of its life, at most one. -/
theorem Life.answers {request : Request Ext Body} {stage : RpcStage Reply}
    (h : Life methods notFound i request stage labels) :
    labels.Pairwise (fun label label' => ∀ path response path' response',
      label = .answers i path response → label' ≠ .answers i path' response') ∧
      ∀ path response, .answers i path response ∈ labels → path = request.path := by
  induction h with
  | handling => simp
  | handled => simp
  | missed => simp
  | answered hlife ih =>
    have hnone := hlife.not_answers (by simp)
    constructor
    · rw [List.pairwise_append]
      refine ⟨ih.1, List.pairwise_singleton _ _, ?_⟩
      intro label hlabel _ _ path response _ _ heq
      subst heq
      exact absurd hlabel (hnone path response)
    · intro path response hmem
      rcases List.mem_append.mp hmem with hbefore | hlast
      · exact absurd hbefore (hnone path response)
      · have heq := List.mem_singleton.mp hlast
        rw [RpcLabel.answers.injEq] at heq
        exact heq.2.1
  | dropped _ _ ih =>
    constructor
    · rw [List.pairwise_append]
      exact ⟨ih.1, List.pairwise_singleton _ _, by simp⟩
    · intro path response hmem
      exact ih.2 path response (by simpa using hmem)

omit [DecidableEq ι] in
theorem mem_tracedRequests {entry : ι × Request Ext Body} :
    entry ∈ tracedRequests telemetry methods envFilter propagator labels ↔
      .arrives entry.1 entry.2 ∈ labels ∧
        spanned telemetry methods envFilter propagator entry.2 = true := by
  simp [tracedRequests, List.mem_filterMap, RpcLabel.tracedRequest_eq_some_iff]

omit [DecidableEq ι] in
theorem mem_tracedAnswers {entry : ι × String} :
    entry ∈ tracedAnswers telemetry methods labels ↔
      (∃ response, .answers entry.1 entry.2 response ∈ labels) ∧
        traces telemetry methods entry.2 = true := by
  simp only [tracedAnswers, List.mem_filterMap, RpcLabel.tracedAnswer_eq_some_iff]
  grind

/-- No request is answered twice. -/
theorem Told.nodup_tracedAnswers
    (h : Told telemetry methods envFilter propagator notFound labels s) :
    (tracedAnswers telemetry methods labels).Nodup := by
  rw [List.Nodup, tracedAnswers, List.pairwise_filterMap, List.pairwise_iff_forall_sublist]
  intro label label' hsub entry hentry entry' hentry' heq
  subst heq
  obtain ⟨⟨response, rfl⟩, _⟩ := RpcLabel.tracedAnswer_eq_some_iff.mp hentry
  obtain ⟨⟨response', rfl⟩, _⟩ := RpcLabel.tracedAnswer_eq_some_iff.mp hentry'
  obtain ⟨request, stage, hlife⟩ := h.life (hsub.subset List.mem_cons_self)
  have hboth : [.answers entry.1 entry.2 response, .answers entry.1 entry.2 response'].Sublist
      (labelsOf entry.1 labels) := by
    simpa [labelsOf, RpcLabel.process] using hsub.filter fun label => label.process = entry.1
  exact List.pairwise_iff_forall_sublist.mp hlife.answers.1 hboth _ _ _ _ rfl rfl

theorem Told.nodup_tracedRequests
    (h : Told telemetry methods envFilter propagator notFound labels s) :
    ((tracedRequests telemetry methods envFilter propagator labels).map Prod.fst).Nodup := by
  have hsame : (tracedRequests telemetry methods envFilter propagator labels).map Prod.fst =
      (opened telemetry methods envFilter propagator labels).map Prod.fst := by
    rw [← List.forall₂_eq_eq_eq, List.forall₂_map_left_iff, List.forall₂_map_right_iff]
    exact (forall₂_opened labels).imp fun _ _ hentry => hentry.1.symm
  rw [hsame]
  exact h.distinct

variable (labels) in
/-- Whether the request of an entry has been answered. -/
def isAnswered (entry : ι × Request Ext Body) : Bool :=
  labels.any fun label => match label with
    | .answers i _ _ => i = entry.1
    | .arrives .. | .handles .. | .misses _ | .drops _ => false

theorem isAnswered_iff {entry : ι × Request Ext Body} : isAnswered labels entry = true ↔
    ∃ path response, .answers entry.1 path response ∈ labels := by
  rw [isAnswered, List.any_eq_true]
  constructor
  · intro hany
    obtain ⟨label, hlabel, hsame⟩ := hany
    cases label with
    | answers i path response =>
      rw [decide_eq_true_eq] at hsame
      subst hsame
      exact ⟨path, response, hlabel⟩
    | arrives | handles | misses | drops => cases hsame
  · intro hsome
    obtain ⟨path, response, hlabel⟩ := hsome
    exact ⟨_, hlabel, decide_eq_true rfl⟩

variable (telemetry methods envFilter propagator labels) in
/-- The requests that were given a span and have been answered, by their paths. -/
def answeredRequests : List (ι × String) :=
  ((tracedRequests telemetry methods envFilter propagator labels).filter
    (isAnswered labels)).map fun entry => (entry.1, entry.2.path)

/-- The spans with a status are those of the requests that have been answered. -/
theorem Told.answered_spans (h : Told telemetry methods envFilter propagator notFound labels s) :
    (s.traffic.spans.filter fun span => span.httpResponseStatusCode.isSome).map Span.urlPath =
      (answeredRequests telemetry methods envFilter propagator labels).map Prod.snd := by
  have htells := h.tells
  unfold answeredRequests
  generalize tracedRequests telemetry methods envFilter propagator labels = entries at htells
  generalize s.traffic.spans = spans at htells
  induction htells with
  | nil => rfl
  | @cons entry span _ _ hentry _ ih =>
    obtain ⟨⟨_, _, hfor⟩, htells⟩ := hentry
    have hstatus : span.httpResponseStatusCode.isSome = isAnswered labels entry := by
      rw [Bool.eq_iff_iff, isAnswered_iff, Option.isSome_iff_exists]
      simp only [htells.httpResponseStatusCode]
      grind
    rw [List.filter_cons, List.filter_cons, hstatus]
    cases isAnswered labels entry with
    | true => simpa [hfor.urlPath] using ih
    | false => simpa using ih

theorem Told.nodup_answeredRequests
    (h : Told telemetry methods envFilter propagator notFound labels s) :
    (answeredRequests telemetry methods envFilter propagator labels).Nodup := by
  refine List.Nodup.of_map Prod.fst ?_
  rw [answeredRequests, List.map_map]
  exact (List.filter_sublist.map _).nodup h.nodup_tracedRequests

/-- A request that was given a span is answered at the path it came in for. -/
theorem Told.answeredRequests_subset
    (h : Told telemetry methods envFilter propagator notFound labels s) :
    answeredRequests telemetry methods envFilter propagator labels ⊆
      tracedAnswers telemetry methods labels := by
  intro entry hentry
  obtain ⟨⟨i, request⟩, hmem, rfl⟩ := List.mem_map.mp hentry
  obtain ⟨hrequest, hanswer⟩ := List.mem_filter.mp hmem
  obtain ⟨path, response, hlabel⟩ := isAnswered_iff.mp hanswer
  obtain ⟨harrives, hspanned⟩ := mem_tracedRequests.mp hrequest
  rw [spanned, Bool.and_eq_true] at hspanned
  obtain ⟨request', stage, hlife⟩ := h.life hlabel
  have hpath := hlife.answers.2 path response (mem_labelsOf hlabel)
  have hsame := hlife.arrives (mem_labelsOf harrives)
  rw [← hsame] at hpath
  subst hpath
  exact mem_tracedAnswers.mpr ⟨⟨response, hlabel⟩, hspanned.1⟩

/-- Without a filter every answer at a traced path is to a request that was given a span. -/
theorem Told.tracedAnswers_subset
    (h : Told telemetry methods envFilter propagator notFound labels s)
    (hopen : ∀ span, envFilter span = true) :
    tracedAnswers telemetry methods labels ⊆
      answeredRequests telemetry methods envFilter propagator labels := by
  rintro ⟨i, path⟩ hanswer
  obtain ⟨⟨response, hlabel⟩, htraces⟩ := mem_tracedAnswers.mp hanswer
  obtain ⟨request, stage, hlife⟩ := h.life hlabel
  have hpath := hlife.answers.2 path response (mem_labelsOf hlabel)
  have harrives := List.mem_of_mem_filter hlife.mem_arrives
  subst hpath
  have hspanned : spanned telemetry methods envFilter propagator request = true := by
    rcases appSpan_cases telemetry methods propagator request with
      ⟨_, _, span, _, hspan, _⟩ | ⟨hnot, _⟩
    · simp [spanned, htraces, hspan, hopen]
    · exact absurd htraces (hnot ▸ Bool.false_ne_true)
  exact List.mem_map.mpr ⟨(i, request), List.mem_filter.mpr
    ⟨mem_tracedRequests.mpr ⟨harrives, hspanned⟩, isAnswered_iff.mpr ⟨_, response, hlabel⟩⟩, rfl⟩

/-- The spans that bear the status of a response are those of answers to requests for traced
    paths, and of all of them unless spans are filtered out. -/
theorem Told.agree (h : Told telemetry methods envFilter propagator notFound labels s)
    (hmeasured : s.traffic.measured = (tracedAnswers telemetry methods labels).map Prod.snd) :
    ((s.traffic.spans.filter fun span => span.httpResponseStatusCode.isSome).map
        Span.urlPath).Subperm s.traffic.measured ∧
      ((∀ span, envFilter span = true) → s.traffic.measured.Perm
        ((s.traffic.spans.filter fun span =>
          span.httpResponseStatusCode.isSome).map Span.urlPath)) := by
  rw [h.answered_spans, hmeasured]
  constructor
  · obtain ⟨answers, hperm, hsub⟩ :=
      List.subperm_of_subset h.nodup_answeredRequests h.answeredRequests_subset
    exact ⟨answers.map Prod.snd, hperm.map Prod.snd, hsub.map Prod.snd⟩
  · intro hopen
    refine List.Perm.map _
      ((List.perm_ext_iff_of_nodup h.nodup_tracedAnswers h.nodup_answeredRequests).mpr ?_)
    intro entry
    exact ⟨fun hanswer => h.tracedAnswers_subset hopen hanswer,
      fun hrequest => h.answeredRequests_subset hrequest⟩

end Run

section App

variable [DecidableEq ι] {telemetry : Telemetry} {methods : List RpcName}
  (envFilter : Span Ctx → Bool) (propagator : Propagator Ctx)
  (handle : Request Ext Body → τ → RpcOutcome × Response Reply × τ) (notFound : Response Reply)

omit [DecidableEq ι] in
/-- The app, by the span it makes for the request. -/
theorem serveApp_eq (request : Request Ext Body) (traffic : Traffic Ctx τ) :
    (serveApp (ε := ε) telemetry methods envFilter propagator handle notFound request traffic).2 =
      match appSpan telemetry methods propagator request with
      | none => (router (ε := ε) (rpcPaths methods) (connectService handle) notFound request
          traffic).2
      | some span =>
        let (number, traffic) := traffic.openSpan envFilter span
        match router (ε := ε) (rpcPaths methods) (connectService handle) notFound
          (request.insertSpan number) traffic with
        | (.error _, traffic) => traffic
        | (.ok response, traffic) =>
          { traffic with measured := traffic.measured ++ [request.path] }.recordAll number
            (ConnectSpanLayer.responseRecords response) := by
  rcases appSpan_cases telemetry methods propagator request with
    ⟨htraces, name, span, hname, hspan, _⟩ | ⟨htraces, hspan⟩
  · obtain ⟨hexporting, htraced⟩ := traces_iff.mp htraces
    have hlayer : ConnectSpanLayer.spanFor ⟨⟨rpcPaths methods⟩⟩ propagator request = some span := by
      rw [appSpan, otelHttpLayers_eq_some_iff.mpr ⟨hexporting, rfl, rfl⟩] at hspan
      exact hspan
    have hcontains := (contains_rpcPaths_iff methods request.path).mpr htraced
    obtain ⟨response, traffic', hrouter, _⟩ := router_ok (ε := ε) (rpcPaths methods) handle notFound
      (request.insertSpan (traffic.openSpan envFilter span).1) (traffic.openSpan envFilter span).2
    rw [serveApp_of_exporting envFilter propagator handle notFound hexporting, hspan]
    simp only [ConnectSpanLayer.call, hlayer, HttpMetricsLayer.call, Request.insertSpan_path,
      hcontains, Bool.not_true, Bool.false_eq_true, if_false, hrouter]
  · rw [hspan]
    unfold serveApp
    cases hlayers : telemetry.otelHttpLayers (rpcPaths methods) with
    | none => rfl
    | some layers =>
      obtain ⟨spans, metrics⟩ := layers
      obtain ⟨hexporting, rfl, rfl⟩ := otelHttpLayers_eq_some_iff.mp hlayers
      rw [traces, hexporting, Bool.true_and] at htraces
      have hnot : ¬ ∃ name, Traced methods request.path name := by
        rw [← contains_rpcPaths_iff, htraces]
        exact Bool.false_ne_true
      simp only [ConnectSpanLayer.call_of_not_traced hnot, HttpMetricsLayer.call, htraces,
        Bool.not_false, if_true]

variable (telemetry) in
/-- A request is routed by a step of it. -/
theorem router_run {s : Serving ι Ctx Ext Body Reply τ} {i : ι} {request : Request Ext Body}
    (hflight : s.flights i = some ⟨request, .handling⟩) :
    ∃ label response s', RpcStep telemetry methods envFilter propagator notFound s label s' ∧
      router (ε := ε) (rpcPaths methods) (connectService handle) notFound request s.traffic =
        (.ok response, s'.traffic) ∧
      s'.flights = Function.update s.flights i (some ⟨request, .responding response⟩) ∧
      label.arrival = none := by
  unfold router
  by_cases hpath : request.path ∈ rpcPaths methods
  · rw [if_pos hpath]
    exact ⟨_, _, _, .handles (handle request s.traffic.service).1
      (handle request s.traffic.service).2.1 (handle request s.traffic.service).2.2 hflight hpath,
      rfl, rfl, rfl⟩
  · rw [if_neg hpath]
    exact ⟨_, _, _, .misses hflight hpath, rfl, rfl, rfl⟩

variable (telemetry) in
/-- The app serves a request by the steps of it alone. -/
theorem serveApp_run {s : Serving ι Ctx Ext Body Reply τ} {i : ι} {request : Request Ext Body}
    (hflight : s.flights i = none) (hoff : request.extensions.rpcSpan = none) :
    ∃ labels s', Trace (RpcStep telemetry methods envFilter propagator notFound) s labels s' ∧
      labels.filterMap RpcLabel.arrival = [request] ∧
      s'.traffic = (serveApp (ε := ε) telemetry methods envFilter propagator handle notFound request
        s.traffic).2 ∧ ∀ j, j ≠ i → s'.flights j = s.flights j := by
  obtain ⟨flight, hflights, hstage, hpath, hnumber⟩ :=
    s.arrive_flights telemetry methods envFilter propagator i hoff
  obtain ⟨request₁, stage⟩ := flight
  subst hstage
  have hflight₁ : (s.arrive telemetry methods envFilter propagator i request).flights i =
      some ⟨request₁, .handling⟩ := by rw [hflights, Function.update_self]
  obtain ⟨label, response, s₂, hroutes, hrouter, hflights₂, hlabel⟩ :=
    router_run (ε := ε) telemetry envFilter propagator handle notFound hflight₁
  have hflight₂ : s₂.flights i = some ⟨request₁, .responding response⟩ := by
    rw [hflights₂, Function.update_self]
  refine ⟨[.arrives i request, label, .answers i request₁.path response], _,
    .cons (.arrives hflight hoff) (.cons hroutes (.cons (.answers _ hflight₂) (.nil _))), ?_, ?_,
    ?_⟩
  · have harrives : (RpcLabel.arrives i request : RpcLabel ι Ext Body Reply).arrival =
        some request := rfl
    have hanswers : (RpcLabel.answers i request₁.path response :
        RpcLabel ι Ext Body Reply).arrival = none := rfl
    simp [harrives, hlabel, hanswers]
  · show (Traffic.recordAll _ _ _) = _
    rw [serveApp_eq, measures_eq_traces, hpath]
    have hself := congrFun hflights i
    unfold Serving.arrive at hself hrouter
    rcases appSpan_cases telemetry methods propagator request with
      ⟨htraces, name, span, _, hspan, _⟩ | ⟨htraces, hspan⟩
    · rw [hspan] at hself hrouter ⊢
      obtain rfl : request.insertSpan (s.traffic.openSpan envFilter span).1 = request₁ := by
        simpa [Serving.set] using hself
      have hrouter' : router (ε := ε) (rpcPaths methods) (connectService handle) notFound
          (request.insertSpan (s.traffic.openSpan envFilter span).1)
          (s.traffic.openSpan envFilter span).2 = (.ok response, s₂.traffic) := hrouter
      simp only [hrouter', htraces, if_true]
      rfl
    · rw [hspan] at hself hrouter ⊢
      obtain rfl : request = request₁ := by
        simpa [Serving.set] using hself
      have hrouter' : router (ε := ε) (rpcPaths methods) (connectService handle) notFound
          request s.traffic = (.ok response, s₂.traffic) := hrouter
      have hnone : rpcSpan request.extensions = none := by rw [rpcSpan, hoff]; rfl
      simp only [hrouter', htraces, hnone, Traffic.recordAll_none, Bool.false_eq_true, if_false,
        List.append_nil]
  · intro j hji
    show Function.update s₂.flights i _ j = _
    rw [Function.update_of_ne hji, hflights₂, Function.update_of_ne hji, hflights,
      Function.update_of_ne hji]

end App

/-- What the app leaves after a list of requests is left by a run in which they are served one
    after the other. -/
theorem serveAll_run (telemetry : Telemetry) {methods : List RpcName} (envFilter : Span Ctx → Bool)
    (propagator : Propagator Ctx)
    (handle : Request Ext Body → τ → RpcOutcome × Response Reply × τ) (notFound : Response Reply)
    (requests : List (Request Ext Body))
    (hoff : ∀ request ∈ requests, request.extensions.rpcSpan = none)
    {s : Serving Nat Ctx Ext Body Reply τ} {next : Nat}
    (hnext : ∀ i, next ≤ i → s.flights i = none) :
    ∃ labels s', Trace (RpcStep telemetry methods envFilter propagator notFound) s labels s' ∧
      labels.filterMap RpcLabel.arrival = requests ∧
      s'.traffic = serveAll (serveApp (ε := ε) telemetry methods envFilter propagator handle
        notFound) requests s.traffic := by
  induction requests generalizing s next with
  | nil => exact ⟨[], s, .nil s, rfl, rfl⟩
  | cons request requests ih =>
    obtain ⟨labels, s₁, htrace, harrivals, htraffic, hothers⟩ := serveApp_run (ε := ε) telemetry
      envFilter propagator handle notFound (hnext next (le_refl next))
      (hoff request List.mem_cons_self)
    have hnext₁ : ∀ i, next + 1 ≤ i → s₁.flights i = none := by
      intro i hi
      rw [hothers i (by omega), hnext i (by omega)]
    obtain ⟨labels', s', hrest, harrivals', hleft⟩ :=
      ih (fun request h => hoff request (List.mem_cons_of_mem _ h)) hnext₁
    refine ⟨labels ++ labels', s', Trace.append_iff.mpr ⟨s₁, htrace, hrest⟩, ?_, ?_⟩
    · rw [List.filterMap_append, harrivals, harrivals', List.singleton_append]
    · rw [hleft, htraffic, serveAll]

/-- What the spans and the measurements of a service tell of its requests. -/
structure Observed (telemetry : Telemetry) (methods : List RpcName) (envFilter : Span Ctx → Bool)
    (propagator : Propagator Ctx) (labels : List (RpcLabel ι Ext Body Reply))
    (traffic : Traffic Ctx τ) : Prop where
  /-- There is a span for each request of a traced path whose span is not filtered out, in the
      order in which they came in. It bears the name of its RPC, and says how far its own
      request has got. -/
  spans : List.Forall₂ (fun (entry : ι × Request Ext Body) (span : Span Ctx) =>
      (∃ name, Traced methods entry.2.path name ∧ span.For propagator name entry.2) ∧
        span.Tells entry.1 labels)
    (tracedRequests telemetry methods envFilter propagator labels) traffic.spans
  /-- A path is measured for each answer, in the order of the answers. -/
  measured : traffic.measured = (tracedAnswers telemetry methods labels).map Prod.snd
  /-- What a span says was answered was measured. -/
  answered : ((traffic.spans.filter fun span => span.httpResponseStatusCode.isSome).map
    Span.urlPath).Subperm traffic.measured
  /-- Unless spans are filtered out, both layers have seen the same requests. -/
  agree : (∀ span, envFilter span = true) → traffic.measured.Perm
    ((traffic.spans.filter fun span => span.httpResponseStatusCode.isSome).map Span.urlPath)

theorem Told.observed [DecidableEq ι] {telemetry : Telemetry} {methods : List RpcName}
    {envFilter : Span Ctx → Bool} {propagator : Propagator Ctx} {notFound : Response Reply}
    {service : τ} {labels : List (RpcLabel ι Ext Body Reply)}
    {s : Serving ι Ctx Ext Body Reply τ}
    (htold : Told telemetry methods envFilter propagator notFound labels s)
    (hrun : Trace (RpcStep telemetry methods envFilter propagator notFound)
      ⟨⟨[], [], service⟩, fun _ => none⟩ labels s) :
    Observed telemetry methods envFilter propagator labels s.traffic := by
  have hmeasured : s.traffic.measured = (tracedAnswers telemetry methods labels).map Prod.snd :=
    Trace.history (I := fun labels s =>
        s.traffic.measured = (tracedAnswers telemetry methods labels).map Prod.snd)
      (fun h hstep => measured_step h hstep) [] hrun rfl
  obtain ⟨hanswered, hagree⟩ := htold.agree hmeasured
  exact ⟨htold.tells, hmeasured, hanswered, hagree⟩

/-- Whatever requests are served at the same time, whichever of them are given up and whatever
    spans `RUST_LOG` filters out, each span tells of its own request and the measurements are
    those of the answers. The app serves requests one after the other by such a run. -/
theorem spans_tell_of_their_requests [DecidableEq ι] (telemetry : Telemetry)
    (methods : List RpcName) (envFilter : Span Ctx → Bool) (propagator : Propagator Ctx)
    (notFound : Response Reply) (service : τ) :
    (∀ (labels : List (RpcLabel ι Ext Body Reply)) (s : Serving ι Ctx Ext Body Reply τ),
      Trace (RpcStep telemetry methods envFilter propagator notFound)
        ⟨⟨[], [], service⟩, fun _ => none⟩ labels s →
      Observed telemetry methods envFilter propagator labels s.traffic ∧
        ∀ label ∈ labels, ∃ request stage,
          Life methods notFound label.process request stage (labelsOf label.process labels)) ∧
    (∀ path, traces telemetry methods path = true ↔
      telemetry.isExporting = true ∧ ∃ name, Traced methods path name) ∧
    ∀ (handle : Request Ext Body → τ → RpcOutcome × Response Reply × τ)
      (requests : List (Request Ext Body)),
      (∀ request ∈ requests, request.extensions.rpcSpan = none) →
      ∃ (labels : List (RpcLabel Nat Ext Body Reply)) (s : Serving Nat Ctx Ext Body Reply τ),
        Trace (RpcStep telemetry methods envFilter propagator notFound)
          ⟨⟨[], [], service⟩, fun _ => none⟩ labels s ∧
        labels.filterMap RpcLabel.arrival = requests ∧
        s.traffic = serveAll (serveApp (ε := ε) telemetry methods envFilter propagator handle
          notFound) requests ⟨[], [], service⟩ ∧
        Observed telemetry methods envFilter propagator labels s.traffic := by
  refine ⟨?_, fun _ => traces_iff, ?_⟩
  · intro labels s hrun
    have htold := Told.run hrun
    exact ⟨htold.observed hrun, fun _ hlabel => htold.life hlabel⟩
  · intro handle requests hoff
    obtain ⟨labels, s, hrun, harrivals, hleft⟩ := serveAll_run (ε := ε) telemetry envFilter
      propagator handle notFound requests hoff
      (s := (⟨⟨[], [], service⟩, fun _ => none⟩ : Serving Nat Ctx Ext Body Reply τ))
      fun (i : Nat) (_ : 0 ≤ i) => rfl
    exact ⟨labels, s, hrun, harrivals, hleft, (Told.run hrun).observed hrun⟩

/-- Two calls of the greeting RPC of which the second one is done first, and fails. -/
def racingCalls : List (RpcLabel Nat Unit Unit Unit) :=
  [.arrives 0 (bareRequest ("/" ++ greetRpc.text)), .arrives 1 (bareRequest ("/" ++ greetRpc.text)),
    .handles 1 (.unary (.error .internal)) ⟨500, [], ()⟩,
    .answers 1 ("/" ++ greetRpc.text) ⟨500, [], ()⟩, .handles 0 (.unary (.ok ())) ⟨200, [], ()⟩,
    .drops 0]

theorem spans_tell_of_their_requests_race :
    (∃ s : Serving Nat Unit Unit Unit Unit Unit,
      Observed ⟨some ⟨.ok (), .ok (), .ok ()⟩⟩ [greetRpc] (fun _ => true) noPropagator
        racingCalls s.traffic) ∧
    ∃ labels : List (RpcLabel Nat Unit Unit Unit),
      labels.filterMap RpcLabel.arrival = [bareRequest ("/" ++ greetRpc.text)] ∧
      Observed ⟨some ⟨.ok (), .ok (), .ok ()⟩⟩ [greetRpc] (fun _ => true) noPropagator labels
        (serveAll (serveApp (ε := Empty) ⟨some ⟨.ok (), .ok (), .ok ()⟩⟩ [greetRpc] (fun _ => true)
          noPropagator handleWell ⟨404, [], ()⟩) [bareRequest ("/" ++ greetRpc.text)]
            ⟨[], [], ()⟩) := by
  have hmounted : "/" ++ greetRpc.text ∈ rpcPaths [greetRpc] := by simp [rpcPaths]
  have hrun : ∃ s : Serving Nat Unit Unit Unit Unit Unit,
      Trace (RpcStep ⟨some ⟨.ok (), .ok (), .ok ()⟩⟩ [greetRpc] (fun _ => true) noPropagator
        ⟨404, [], ()⟩) ⟨⟨[], [], ()⟩, fun _ => none⟩ racingCalls s := by
    exact ⟨_, .cons (.arrives rfl rfl) (.cons (.arrives rfl rfl)
      (.cons (.handles _ _ () rfl hmounted)
        (.cons (.answers (.insertSpan (bareRequest _) (some 1)) rfl)
          (.cons (.handles _ _ () rfl hmounted) (.cons (.drops rfl (by simp)) (.nil _))))))⟩
  obtain ⟨s, hrun⟩ := hrun
  have h := @spans_tell_of_their_requests Nat Unit Unit Unit Unit Unit Empty _
    ⟨some ⟨.ok (), .ok (), .ok ()⟩⟩ [greetRpc] (fun _ => true) noPropagator ⟨404, [], ()⟩ ()
  obtain ⟨labels, s', _, harrivals, hleft, hobserved⟩ :=
    h.2.2 handleWell [bareRequest ("/" ++ greetRpc.text)] (by simp [bareRequest])
  rw [hleft] at hobserved
  exact ⟨⟨s, (h.1 racingCalls s hrun).1⟩, labels, harrivals, hobserved⟩

end QuizArena.Server
