import QuizArena.Server.RpcTelemetry

/-!
# Who names the spans

A path is traced when it is a slash and a mounted name that is no tooling. The span layer
and the metrics layer decide this by different code; here both decisions are shown to be
this one. From what a single request leaves behind follows what every sequence of
requests does: the spans carry names of mounted RPCs only, and the paths measured are
those of the spans.
-/

namespace QuizArena.Server

open Lib

variable {Ctx Ext Body Reply τ ε : Type}

/-! ## The traced paths -/

/-- A name under one of the packages of reflection and health checks. -/
def Tooling (name : String) : Prop :=
  "grpc.reflection.".toList <+: name.toList ∨ "grpc.health.".toList <+: name.toList

/-- The path is that of a mounted RPC which is no tooling. -/
def Traced (methods : List RpcName) (path : String) (name : RpcName) : Prop :=
  name ∈ methods ∧ ¬ Tooling name.text ∧ path = "/" ++ name.text

theorem toList_slash_append (s : String) : ("/" ++ s).toList = '/' :: s.toList := by
  have hslash : "/".toList = ['/'] := by decide
  rw [String.toList_append, hslash, List.singleton_append]

theorem isTooling_slash_iff (name : String) : isTooling ("/" ++ name) = true ↔ Tooling name := by
  have hreflection : "/grpc.reflection.".toList = '/' :: "grpc.reflection.".toList := by decide
  have hhealth : "/grpc.health.".toList = '/' :: "grpc.health.".toList := by decide
  rw [isTooling, Tooling, toList_slash_append, hreflection, hhealth, Bool.or_eq_true,
    List.isPrefixOf_iff_prefix, List.isPrefixOf_iff_prefix, List.cons_prefix_cons,
    List.cons_prefix_cons]
  simp

theorem contains_rpcPaths_iff (methods : List RpcName) (path : String) :
    TracedPaths.contains ⟨rpcPaths methods⟩ path = true ↔ ∃ name, Traced methods path name := by
  rw [TracedPaths.contains, Bool.and_eq_true, decide_eq_true_eq, rpcPaths, List.mem_toFinset,
    List.mem_map]
  constructor
  · intro h
    obtain ⟨⟨name, hname, rfl⟩, htooling⟩ := h
    refine ⟨name, hname, ?_, rfl⟩
    rw [← isTooling_slash_iff]
    simpa using htooling
  · intro h
    obtain ⟨name, hname, htooling, rfl⟩ := h
    refine ⟨⟨name, hname, rfl⟩, ?_⟩
    rw [← isTooling_slash_iff] at htooling
    simpa using htooling

/-- The split of a path undoes the joining of service and method. -/
theorem rpcPath_slash_text (name : RpcName) :
    rpcPath ("/" ++ name.text) = some (name.service, name.method) := by
  have hchars : name.text.toList = name.service.toList ++ '/' :: name.method.toList := by
    rw [RpcName.text, String.append_assoc, String.toList_append, toList_slash_append]
  have hsplit : splitOnce '/' name.text.toList = some (name.service.toList, name.method.toList) :=
    splitOnce_eq_some_iff.mpr ⟨hchars, name.plain⟩
  unfold rpcPath
  rw [toList_slash_append]
  simp only [hsplit, Option.map_some, String.ofList_toList]

/-! ## One request -/

namespace ConnectSpanLayer

/-- The span of a traced path has the mounted name. -/
theorem spanFor_of_traced {methods : List RpcName} {request : Request Ext Body} {name : RpcName}
    (h : Traced methods request.path name) (propagator : Propagator Ctx) :
    ∃ span, spanFor ⟨⟨rpcPaths methods⟩⟩ propagator request = some span ∧
      span.otelName = name.text ∧ span.rpcMethod = name.text ∧ span.urlPath = request.path := by
  have hcontains := (contains_rpcPaths_iff methods request.path).mpr ⟨name, h⟩
  have hpath : rpcPath request.path = some (name.service, name.method) := by
    rw [h.2.2]
    exact rpcPath_slash_text name
  unfold spanFor
  rw [if_pos hcontains, hpath]
  exact ⟨_, rfl, rfl, rfl, rfl⟩

theorem spanFor_of_not_traced {methods : List RpcName} {request : Request Ext Body}
    (h : ¬ ∃ name, Traced methods request.path name) (propagator : Propagator Ctx) :
    spanFor ⟨⟨rpcPaths methods⟩⟩ propagator request = none := by
  rw [← contains_rpcPaths_iff] at h
  unfold spanFor
  rw [if_neg h]
  rfl

theorem isSome_spanFor_iff (methods : List RpcName) (request : Request Ext Body)
    (propagator : Propagator Ctx) :
    (spanFor ⟨⟨rpcPaths methods⟩⟩ propagator request).isSome ↔
      ∃ name, Traced methods request.path name := by
  constructor
  · intro h
    by_contra hnot
    rw [spanFor_of_not_traced hnot] at h
    cases h
  · intro h
    obtain ⟨name, hname⟩ := h
    obtain ⟨span, hspan, _⟩ := spanFor_of_traced hname propagator
    rw [hspan]
    rfl

/-- A request that gets no span reaches the inner service as it came. -/
theorem call_of_not_traced {methods : List RpcName} {request : Request Ext Body}
    (h : ¬ ∃ name, Traced methods request.path name) (envFilter : Span Ctx → Bool)
    (propagator : Propagator Ctx) (inner : Service Ctx Ext Body Reply τ ε)
    (traffic : Traffic Ctx τ) :
    call ⟨⟨rpcPaths methods⟩⟩ envFilter propagator inner request traffic =
      inner request traffic := by
  unfold call
  rw [spanFor_of_not_traced h]

end ConnectSpanLayer

/-! ## What records leave alone -/

/-- What a span says of its RPC. -/
def Span.label (span : Span Ctx) : String × String × String :=
  (span.otelName, span.rpcMethod, span.urlPath)

@[simp] theorem Span.label_record (span : Span Ctx) (field : Record) :
    (span.record field).label = span.label := by
  cases field <;> rfl

/-- The spans still say the same of their RPCs, and nothing was measured. -/
structure Traffic.Keeps (traffic traffic' : Traffic Ctx τ) : Prop where
  labels : traffic'.spans.map Span.label = traffic.spans.map Span.label
  measured : traffic'.measured = traffic.measured

theorem Traffic.Keeps.trans {traffic traffic' traffic'' : Traffic Ctx τ}
    (h : traffic.Keeps traffic') (h' : traffic'.Keeps traffic'') : traffic.Keeps traffic'' :=
  ⟨h'.labels.trans h.labels, h'.measured.trans h.measured⟩

theorem map_label_modify (spans : List (Span Ctx)) (number : Nat) (field : Record) :
    (spans.modify number fun span => span.record field).map Span.label =
      spans.map Span.label := by
  induction spans generalizing number with
  | nil => rw [List.modify_nil]
  | cons span spans ih =>
    cases number with
    | zero => simp
    | succ number => simp [ih]

theorem Traffic.keeps_record (traffic : Traffic Ctx τ) (span : Option Nat) (field : Record) :
    traffic.Keeps (traffic.record span field) := by
  cases span with
  | none => exact ⟨rfl, rfl⟩
  | some number => exact ⟨map_label_modify traffic.spans number field, rfl⟩

theorem Traffic.keeps_recordAll (traffic : Traffic Ctx τ) (span : Option Nat)
    (fields : List Record) : traffic.Keeps (traffic.recordAll span fields) := by
  induction fields generalizing traffic with
  | nil => exact ⟨rfl, rfl⟩
  | cons field fields ih => exact (traffic.keeps_record span field).trans (ih _)

/-- The router answers every request and opens no span of its own. -/
theorem router_ok (paths : Finset String)
    (handle : Request Ext Body → τ → RpcOutcome × Response Reply × τ) (notFound : Response Reply)
    (request : Request Ext Body) (traffic : Traffic Ctx τ) :
    ∃ response traffic', router (ε := ε) paths (connectService handle) notFound request traffic =
      (.ok response, traffic') ∧ traffic.Keeps traffic' := by
  unfold router
  split
  · refine ⟨_, _, rfl, ?_⟩
    have hservice :
        traffic.Keeps { traffic with service := (handle request traffic.service).2.2 } := ⟨rfl, rfl⟩
    exact hservice.trans (Traffic.keeps_recordAll _ _ _)
  · exact ⟨_, _, rfl, rfl, rfl⟩

/-! ## The application -/

/-- The labels and measured paths a request adds to those there were. -/
structure Traffic.Adds (traffic traffic' : Traffic Ctx τ) (labels : List (String × String × String))
    (paths : List String) : Prop where
  labels : traffic'.spans.map Span.label = traffic.spans.map Span.label ++ labels
  measured : traffic'.measured = traffic.measured ++ paths

theorem Traffic.Keeps.adds_nil {traffic traffic' : Traffic Ctx τ} (h : traffic.Keeps traffic') :
    traffic.Adds traffic' [] [] := by
  refine ⟨?_, ?_⟩
  · rw [List.append_nil, h.labels]
  · rw [List.append_nil, h.measured]

section App

variable {telemetry : Telemetry} {methods : List RpcName} (envFilter : Span Ctx → Bool)
  (propagator : Propagator Ctx) (handle : Request Ext Body → τ → RpcOutcome × Response Reply × τ)
  (notFound : Response Reply)

theorem otelHttpLayers_eq_some_iff {paths : Finset String} {spans : ConnectSpanLayer}
    {metrics : HttpMetricsLayer} :
    telemetry.otelHttpLayers paths = some (spans, metrics) ↔
      telemetry.isExporting = true ∧ spans = ⟨⟨paths⟩⟩ ∧
        metrics = ⟨fun path => !TracedPaths.contains ⟨paths⟩ path⟩ := by
  unfold Telemetry.otelHttpLayers Telemetry.isExporting
  cases telemetry.providers with
  | none => simp
  | some providers => simp [eq_comm]

theorem serveApp_of_exporting (h : telemetry.isExporting = true) :
    (serveApp telemetry methods envFilter propagator handle notFound :
        Service Ctx Ext Body Reply τ ε) =
      ConnectSpanLayer.call ⟨⟨rpcPaths methods⟩⟩ envFilter propagator
        (HttpMetricsLayer.call ⟨fun path => !TracedPaths.contains ⟨rpcPaths methods⟩ path⟩
          (router (rpcPaths methods) (connectService handle) notFound)) := by
  unfold serveApp
  rw [otelHttpLayers_eq_some_iff.mpr ⟨h, rfl, rfl⟩]

/-- The metrics layer measures a request it does not skip. -/
theorem metrics_adds (layer : HttpMetricsLayer) (paths : Finset String)
    (request : Request Ext Body) (traffic : Traffic Ctx τ) :
    ∃ response traffic', layer.call (ε := ε) (router paths (connectService handle) notFound)
        request traffic = (.ok response, traffic') ∧
      traffic.Adds traffic' [] (if layer.skips request.path then [] else [request.path]) := by
  obtain ⟨response, traffic', hrouter, hkeeps⟩ :=
    router_ok (ε := ε) paths handle notFound request traffic
  unfold HttpMetricsLayer.call
  rw [hrouter]
  cases layer.skips request.path with
  | true => exact ⟨response, traffic', rfl, hkeeps.adds_nil⟩
  | false =>
    refine ⟨response, _, rfl, hkeeps.adds_nil.labels, ?_⟩
    show traffic'.measured ++ [request.path] = traffic.measured ++ [request.path]
    rw [hkeeps.measured]

theorem Traffic.label_openSpan (traffic : Traffic Ctx τ) (span : Span Ctx) :
    (traffic.openSpan envFilter span).2.spans.map Span.label =
        traffic.spans.map Span.label ++ (if envFilter span then [span.label] else []) ∧
      (traffic.openSpan envFilter span).2.measured = traffic.measured := by
  unfold Traffic.openSpan
  cases envFilter span <;> simp

/-- A request for a traced path adds one measurement, and one span of that name unless it is
    filtered out. -/
theorem serveApp_of_traced (hexporting : telemetry.isExporting = true) {request : Request Ext Body}
    {name : RpcName} (h : Traced methods request.path name) {span : Span Ctx}
    (hspan : ConnectSpanLayer.spanFor ⟨⟨rpcPaths methods⟩⟩ propagator request = some span)
    (traffic : Traffic Ctx τ) :
    traffic.Adds
      (serveApp (ε := ε) telemetry methods envFilter propagator handle notFound request traffic).2
      (if envFilter span then [(name.text, name.text, request.path)] else []) [request.path] := by
  obtain ⟨_, hspan', hname, hmethod, hpath⟩ := ConnectSpanLayer.spanFor_of_traced h propagator
  obtain rfl := Option.some.inj (hspan.symm.trans hspan')
  have hcontains := (contains_rpcPaths_iff methods request.path).mpr ⟨name, h⟩
  have hlabel : span.label = (name.text, name.text, request.path) := by
    rw [Span.label, hname, hmethod, hpath]
  obtain ⟨hopened, hunmeasured⟩ := traffic.label_openSpan envFilter span
  rw [hlabel] at hopened
  rw [serveApp_of_exporting envFilter propagator handle notFound hexporting]
  unfold ConnectSpanLayer.call
  rw [hspan]
  simp only
  generalize traffic.openSpan envFilter span = opened at hopened hunmeasured ⊢
  obtain ⟨number, traffic₁⟩ := opened
  obtain ⟨response, traffic', hmetrics, hadds⟩ := metrics_adds (ε := ε) handle notFound
    ⟨fun path => !TracedPaths.contains ⟨rpcPaths methods⟩ path⟩ (rpcPaths methods)
    (request.insertSpan number) traffic₁
  simp only [Request.insertSpan_path, hcontains, Bool.not_true, Bool.false_eq_true,
    if_false] at hadds
  simp only [hmetrics]
  have hkeeps := Traffic.keeps_recordAll traffic' number
    (ConnectSpanLayer.responseRecords response)
  refine ⟨?_, ?_⟩
  · rw [hkeeps.labels, hadds.labels, List.append_nil, hopened]
  · rw [hkeeps.measured, hadds.measured, hunmeasured]

/-- Any other request adds neither. -/
theorem serveApp_of_not_traced (hexporting : telemetry.isExporting = true)
    {request : Request Ext Body} (h : ¬ ∃ name, Traced methods request.path name)
    (traffic : Traffic Ctx τ) :
    traffic.Adds
      (serveApp (ε := ε) telemetry methods envFilter propagator handle notFound request traffic).2
      [] [] := by
  rw [serveApp_of_exporting envFilter propagator handle notFound hexporting,
    ConnectSpanLayer.call_of_not_traced h]
  obtain ⟨response, traffic', hmetrics, hadds⟩ := metrics_adds (ε := ε) handle notFound
    ⟨fun path => !TracedPaths.contains ⟨rpcPaths methods⟩ path⟩ (rpcPaths methods) request traffic
  rw [← contains_rpcPaths_iff, Bool.not_eq_true] at h
  simp only [h, Bool.not_false, if_true] at hadds
  rw [hmetrics]
  exact hadds

/-! ## Every sequence of requests -/

/-- Every span has the name of a mounted RPC that is no tooling. The paths of the spans were
    measured, and no others unless spans are filtered out. -/
structure Accounted (methods : List RpcName) (envFilter : Span Ctx → Bool)
    (traffic : Traffic Ctx τ) : Prop where
  named : ∀ span ∈ traffic.spans, ∃ name, Traced methods span.urlPath name ∧
    span.otelName = name.text ∧ span.rpcMethod = name.text
  measured : (traffic.spans.map Span.urlPath).Sublist traffic.measured
  agree : (∀ span, envFilter span = true) → traffic.measured = traffic.spans.map Span.urlPath

theorem urlPath_eq_label (spans : List (Span Ctx)) :
    spans.map Span.urlPath = (spans.map Span.label).map fun label => label.2.2 := by
  rw [List.map_map]
  rfl

variable {envFilter} in
/-- What was accounted for stays so when only spans of traced paths are added, each with
    its measurement. -/
theorem Accounted.adds {traffic traffic' : Traffic Ctx τ} (h : Accounted methods envFilter traffic)
    {labels : List (String × String × String)} {paths : List String}
    (hadds : traffic.Adds traffic' labels paths)
    (hmeasured : (labels.map fun label => label.2.2).Sublist paths)
    (hagree : (∀ span, envFilter span = true) → paths = labels.map fun label => label.2.2)
    (hlabels : ∀ label ∈ labels, ∃ name, Traced methods label.2.2 name ∧
      label.1 = name.text ∧ label.2.1 = name.text) : Accounted methods envFilter traffic' := by
  refine ⟨?_, ?_, ?_⟩
  · intro span hspan
    have hmem : span.label ∈ traffic.spans.map Span.label ++ labels := by
      rw [← hadds.labels]
      exact List.mem_map_of_mem hspan
    rcases List.mem_append.mp hmem with hold | hnew
    · obtain ⟨old, hmem, heq⟩ := List.mem_map.mp hold
      obtain ⟨name, htraced, hname, hmethod⟩ := h.named old hmem
      simp only [Span.label, Prod.mk.injEq] at heq
      refine ⟨name, ?_, ?_, ?_⟩
      · rw [← heq.2.2]
        exact htraced
      · rw [← heq.1, hname]
      · rw [← heq.2.1, hmethod]
    · exact hlabels _ hnew
  · rw [hadds.measured, urlPath_eq_label, hadds.labels, List.map_append, ← urlPath_eq_label]
    exact h.measured.append hmeasured
  · intro hopen
    rw [hadds.measured, h.agree hopen, hagree hopen, urlPath_eq_label, urlPath_eq_label,
      hadds.labels, List.map_append]

theorem serveApp_accounted (hexporting : telemetry.isExporting = true) {traffic : Traffic Ctx τ}
    (h : Accounted methods envFilter traffic) (request : Request Ext Body) :
    Accounted methods envFilter
      (serveApp (ε := ε) telemetry methods envFilter propagator handle notFound request
        traffic).2 := by
  by_cases htraced : ∃ name, Traced methods request.path name
  · obtain ⟨name, hname⟩ := htraced
    obtain ⟨span, hspan, _⟩ := ConnectSpanLayer.spanFor_of_traced hname propagator
    refine h.adds (serveApp_of_traced envFilter propagator handle notFound hexporting hname hspan
      traffic) ?_ ?_ ?_
    · cases envFilter span with
      | true => exact List.Sublist.refl _
      | false => exact List.nil_sublist _
    · intro hopen
      rw [hopen]
      rfl
    · intro label hlabel
      cases hfilter : envFilter span with
      | true =>
        rw [hfilter, if_pos rfl] at hlabel
        rw [List.mem_singleton.mp hlabel]
        exact ⟨name, hname, rfl, rfl⟩
      | false =>
        rw [hfilter, if_neg Bool.false_ne_true] at hlabel
        cases hlabel
  · refine h.adds (serveApp_of_not_traced envFilter propagator handle notFound hexporting htraced
      traffic) (List.Sublist.refl _) (fun _ => rfl) ?_
    intro label hlabel
    cases hlabel

theorem serveAll_accounted (hexporting : telemetry.isExporting = true)
    (requests : List (Request Ext Body)) {traffic : Traffic Ctx τ}
    (h : Accounted methods envFilter traffic) :
    Accounted methods envFilter (serveAll
      (serveApp (ε := ε) telemetry methods envFilter propagator handle notFound) requests
        traffic) := by
  induction requests generalizing traffic with
  | nil => exact h
  | cons request requests ih =>
    exact ih (serveApp_accounted envFilter propagator handle notFound hexporting h request)

end App

/-- Both layers trace the paths of the mounted RPCs that are no tooling, a span has the
    name of its RPC, a request for any other path passes the span layer as it came. The app
    opens that span unless `RUST_LOG` filters it out, and measures the path either way; so no
    sequence of requests makes a span of any other name, and spans and measurements agree. -/
theorem spans_name_mounted_rpcs (methods : List RpcName) (telemetry : Telemetry)
    (spans : ConnectSpanLayer) (metrics : HttpMetricsLayer)
    (hlayers : telemetry.otelHttpLayers (rpcPaths methods) = some (spans, metrics))
    (envFilter : Span Ctx → Bool) (propagator : Propagator Ctx)
    (handle : Request Ext Body → τ → RpcOutcome × Response Reply × τ)
    (notFound : Response Reply) :
    (∀ request : Request Ext Body,
      ((spans.spanFor propagator request).isSome ↔ metrics.skips request.path = false) ∧
      (metrics.skips request.path = false ↔ ∃ name, Traced methods request.path name) ∧
      (∀ name, Traced methods request.path name →
        ∃ span, spans.spanFor propagator request = some span ∧
          span.otelName = name.text ∧ span.rpcMethod = name.text ∧
          ∀ traffic : Traffic Ctx τ, traffic.Adds
            (serveApp (ε := ε) telemetry methods envFilter propagator handle notFound request
              traffic).2
            (if envFilter span then [(name.text, name.text, request.path)] else [])
            [request.path]) ∧
      ((¬ ∃ name, Traced methods request.path name) →
        (∀ (inner : Service Ctx Ext Body Reply τ ε) (traffic : Traffic Ctx τ),
          spans.call envFilter propagator inner request traffic = inner request traffic) ∧
        ∀ traffic : Traffic Ctx τ, traffic.Adds
          (serveApp (ε := ε) telemetry methods envFilter propagator handle notFound request
            traffic).2 [] [])) ∧
    ∀ (requests : List (Request Ext Body)) (service : τ),
      Accounted methods envFilter (serveAll
        (serveApp (ε := ε) telemetry methods envFilter propagator handle notFound) requests
          ⟨[], [], service⟩) := by
  obtain ⟨hexporting, rfl, rfl⟩ := otelHttpLayers_eq_some_iff.mp hlayers
  have hskips : ∀ path, (!TracedPaths.contains ⟨rpcPaths methods⟩ path) = false ↔
      ∃ name, Traced methods path name := by
    intro path
    rw [← contains_rpcPaths_iff, Bool.not_eq_false']
  refine ⟨?_, ?_⟩
  · intro request
    refine ⟨?_, hskips request.path, ?_, ?_⟩
    · rw [ConnectSpanLayer.isSome_spanFor_iff]
      exact (hskips request.path).symm
    · intro name hname
      obtain ⟨span, hspan, hotel, hmethod, _⟩ :=
        ConnectSpanLayer.spanFor_of_traced hname propagator
      exact ⟨span, hspan, hotel, hmethod,
        serveApp_of_traced envFilter propagator handle notFound hexporting hname hspan⟩
    · intro hnot
      exact ⟨ConnectSpanLayer.call_of_not_traced hnot envFilter propagator,
        serveApp_of_not_traced envFilter propagator handle notFound hexporting hnot⟩
  · intro requests service
    exact serveAll_accounted envFilter propagator handle notFound hexporting requests
      ⟨fun span hspan => absurd hspan List.not_mem_nil, List.nil_sublist _, fun _ => rfl⟩

/-- The greeting RPC and a health check, as mounted. -/
def greetRpc : RpcName := ⟨"quiz_arena.greet.v1.GreetService", "Greet", by decide⟩

def checkRpc : RpcName := ⟨"grpc.health.v1.Health", "Check", by decide⟩

/-- A request for a path with nothing else in it. -/
def bareRequest (path : String) : Request Unit Unit := ⟨"POST", path, [], ⟨none, ()⟩, ()⟩

/-- A propagator that carries nothing. -/
def noPropagator : Propagator Unit := ⟨fun _ => (), fun _ headers => headers⟩

/-- Every request is handled well. -/
def handleWell (_ : Request Unit Unit) (_ : Unit) : RpcOutcome × Response Unit × Unit :=
  (.unary (.ok ()), ⟨200, [], ()⟩, ())

theorem traced_greetRpc : Traced [greetRpc, checkRpc] ("/" ++ greetRpc.text) greetRpc := by
  refine ⟨by simp, ?_, rfl⟩
  unfold Tooling
  decide

theorem spans_name_mounted_rpcs_greet :
    ∃ spans metrics, (⟨some ⟨.ok (), .ok (), .ok ()⟩⟩ : Telemetry).otelHttpLayers
        (rpcPaths [greetRpc, checkRpc]) = some (spans, metrics) ∧
      metrics.skips ("/" ++ greetRpc.text) = false ∧
      (∃ span, spans.spanFor noPropagator (bareRequest ("/" ++ greetRpc.text)) = some span ∧
        span.otelName = "quiz_arena.greet.v1.GreetService/Greet") ∧
      Traffic.Adds ⟨[], [], ()⟩
        (serveApp (ε := Empty) ⟨some ⟨.ok (), .ok (), .ok ()⟩⟩ [greetRpc, checkRpc] (fun _ => true)
          noPropagator handleWell ⟨404, [], ()⟩ (bareRequest ("/" ++ greetRpc.text))
            ⟨[], [], ()⟩).2
        [(greetRpc.text, greetRpc.text, "/" ++ greetRpc.text)] ["/" ++ greetRpc.text] := by
  refine ⟨_, _, rfl, ?_⟩
  have h := (spans_name_mounted_rpcs (ε := Empty) [greetRpc, checkRpc]
    ⟨some ⟨.ok (), .ok (), .ok ()⟩⟩ _ _ rfl (fun _ => true) noPropagator handleWell
    ⟨404, [], ()⟩).1 (bareRequest ("/" ++ greetRpc.text))
  obtain ⟨span, hspan, hname, _, hadds⟩ := h.2.2.1 greetRpc traced_greetRpc
  refine ⟨h.2.1.mpr ⟨greetRpc, traced_greetRpc⟩, ⟨span, hspan, ?_⟩, hadds ⟨[], [], ()⟩⟩
  rw [hname]
  decide

end QuizArena.Server
