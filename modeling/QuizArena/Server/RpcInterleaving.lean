import QuizArena.Lib.Transition
import QuizArena.Server.RpcSpans
import Mathlib.Logic.Function.Basic

/-!
# RPCs that are served at the same time

A request is served in stages: the span layer opens its span when it comes in, the
interceptor records how it ended once the handler is done, and the layers around record
the response when it goes out. Between these any other request may make a step, and a
request may be given up at any of them. The span of a request goes with it, so whatever is
served beside it, a span holds what was recorded for its own request and nothing else.
-/

namespace QuizArena.Server

open Lib

variable {ι Ctx Ext Body Reply τ ε : Type}

/-- How far a request has come. -/
inductive RpcStage (Reply : Type) where
  | handling
  | responding (response : Response Reply)
  | over

/-- A request that is served, with the span that was opened for it among its extensions. -/
structure Flight (Ext Body Reply : Type) where
  request : Request Ext Body
  stage : RpcStage Reply

/-- A step of a request. -/
inductive RpcLabel (ι Ext Body Reply : Type) where
  | arrives (process : ι) (request : Request Ext Body)
  /-- The handler is done, and the interceptor has recorded the outcome. -/
  | handles (process : ι) (outcome : RpcOutcome) (response : Response Reply)
  /-- No RPC is mounted at the path. -/
  | misses (process : ι)
  | answers (process : ι) (path : String) (response : Response Reply)
  /-- The future of the request is dropped. -/
  | drops (process : ι)

namespace RpcLabel

def process : RpcLabel ι Ext Body Reply → ι
  | .arrives i _ | .handles i _ _ | .misses i | .answers i _ _ | .drops i => i

/-- The request that comes in by a step. -/
def arrival : RpcLabel ι Ext Body Reply → Option (Request Ext Body)
  | .arrives _ request => some request
  | .handles .. | .misses _ | .answers .. | .drops _ => none

/-- What a step records on the span of its request. -/
def records : RpcLabel ι Ext Body Reply → List Record
  | .handles _ outcome _ => interceptorRecords outcome
  | .answers _ _ response => ConnectSpanLayer.responseRecords response
  | .arrives .. | .misses _ | .drops _ => []

end RpcLabel

/-- The records of a list on a span, the first one first. -/
def Span.recordAll (span : Span Ctx) (fields : List Record) : Span Ctx :=
  fields.foldl Span.record span

theorem Span.recordAll_append (span : Span Ctx) (fields fields' : List Record) :
    span.recordAll (fields ++ fields') = (span.recordAll fields).recordAll fields' :=
  List.foldl_append

/-- The requests that are served, or were, and what they have left behind. -/
structure Serving (ι Ctx Ext Body Reply τ : Type) where
  traffic : Traffic Ctx τ
  flights : ι → Option (Flight Ext Body Reply)

section App

variable (telemetry : Telemetry) (methods : List RpcName) (envFilter : Span Ctx → Bool)
  (propagator : Propagator Ctx) (notFound : Response Reply)

/-- The span that the app makes for a request. -/
def appSpan (request : Request Ext Body) : Option (Span Ctx) :=
  (telemetry.otelHttpLayers (rpcPaths methods)).bind fun layers =>
    layers.1.spanFor propagator request

/-- The span that it opens, which is not filtered out. -/
def spanOf (request : Request Ext Body) : Option (Span Ctx) :=
  (appSpan telemetry methods propagator request).filter envFilter

/-- The app measures requests for the path. -/
def measures (path : String) : Bool :=
  (telemetry.otelHttpLayers (rpcPaths methods)).any fun layers => !layers.2.skips path

variable [DecidableEq ι]

/-- The stage of a request changes. -/
def Serving.set (s : Serving ι Ctx Ext Body Reply τ) (i : ι) (flight : Flight Ext Body Reply) :
    Serving ι Ctx Ext Body Reply τ :=
  { s with flights := Function.update s.flights i (some flight) }

/-- A request comes in. -/
def Serving.arrive (s : Serving ι Ctx Ext Body Reply τ) (i : ι) (request : Request Ext Body) :
    Serving ι Ctx Ext Body Reply τ :=
  match appSpan telemetry methods propagator request with
  | none => s.set i ⟨request, .handling⟩
  | some span =>
    let (handle, traffic) := s.traffic.openSpan envFilter span
    { s.set i ⟨request.insertSpan handle, .handling⟩ with traffic }

/-- The handler of a request is done, which leaves the service in some state. -/
def Serving.handle (s : Serving ι Ctx Ext Body Reply τ) (i : ι) (flight : Flight Ext Body Reply)
    (outcome : RpcOutcome) (response : Response Reply) (service : τ) :
    Serving ι Ctx Ext Body Reply τ :=
  { s.set i { flight with stage := .responding response } with
    traffic := { s.traffic with service := service }.recordAll (rpcSpan flight.request.extensions)
      (interceptorRecords outcome) }

/-- The response of a request goes out. -/
def Serving.answer (s : Serving ι Ctx Ext Body Reply τ) (i : ι) (flight : Flight Ext Body Reply)
    (response : Response Reply) : Serving ι Ctx Ext Body Reply τ :=
  let measured := if measures telemetry methods flight.request.path then [flight.request.path]
    else []
  { s.set i { flight with stage := .over } with
    traffic := { s.traffic with measured := s.traffic.measured ++ measured }.recordAll
      (rpcSpan flight.request.extensions) (ConnectSpanLayer.responseRecords response) }

/-- The steps of the requests that are served. A request comes off the wire without a span. -/
inductive RpcStep : Serving ι Ctx Ext Body Reply τ → RpcLabel ι Ext Body Reply →
    Serving ι Ctx Ext Body Reply τ → Prop where
  | arrives {s : Serving ι Ctx Ext Body Reply τ} {i : ι} {request : Request Ext Body} :
      s.flights i = none → request.extensions.rpcSpan = none →
      RpcStep s (.arrives i request) (s.arrive telemetry methods envFilter propagator i request)
  | handles {s : Serving ι Ctx Ext Body Reply τ} {i : ι} {request : Request Ext Body}
      (outcome : RpcOutcome) (response : Response Reply) (service : τ) :
      s.flights i = some ⟨request, .handling⟩ → request.path ∈ rpcPaths methods →
      RpcStep s (.handles i outcome response)
        (s.handle i ⟨request, .handling⟩ outcome response service)
  | misses {s : Serving ι Ctx Ext Body Reply τ} {i : ι} {request : Request Ext Body} :
      s.flights i = some ⟨request, .handling⟩ → request.path ∉ rpcPaths methods →
      RpcStep s (.misses i) (s.set i ⟨request, .responding notFound⟩)
  | answers {s : Serving ι Ctx Ext Body Reply τ} {i : ι} (request : Request Ext Body)
      {response : Response Reply} : s.flights i = some ⟨request, .responding response⟩ →
      RpcStep s (.answers i request.path response)
        (s.answer telemetry methods i ⟨request, .responding response⟩ response)
  | drops {s : Serving ι Ctx Ext Body Reply τ} {i : ι} {request : Request Ext Body}
      {stage : RpcStage Reply} : s.flights i = some ⟨request, stage⟩ → stage ≠ .over →
      RpcStep s (.drops i) (s.set i ⟨request, .over⟩)

/-! ## The life of a request -/

/-- The steps of a request up to a stage of it. -/
inductive Life (i : ι) (request : Request Ext Body) :
    RpcStage Reply → List (RpcLabel ι Ext Body Reply) → Prop where
  | handling : Life i request .handling [.arrives i request]
  | handled (outcome : RpcOutcome) (response : Response Reply) :
      request.path ∈ rpcPaths methods →
      Life i request (.responding response) [.arrives i request, .handles i outcome response]
  | missed : request.path ∉ rpcPaths methods →
      Life i request (.responding notFound) [.arrives i request, .misses i]
  | answered {response : Response Reply} {labels : List (RpcLabel ι Ext Body Reply)} :
      Life i request (.responding response) labels →
      Life i request .over (labels ++ [.answers i request.path response])
  | dropped {stage : RpcStage Reply} {labels : List (RpcLabel ι Ext Body Reply)} :
      stage ≠ .over → Life i request stage labels → Life i request .over (labels ++ [.drops i])

/-- The steps of a request. -/
def labelsOf (i : ι) (labels : List (RpcLabel ι Ext Body Reply)) :
    List (RpcLabel ι Ext Body Reply) :=
  labels.filter fun label => label.process = i

/-- What was recorded for a request. -/
def recordsOf (i : ι) (labels : List (RpcLabel ι Ext Body Reply)) : List Record :=
  (labelsOf i labels).flatMap RpcLabel.records

/-- The span of a step, with the request it is for. -/
def RpcLabel.opens (label : RpcLabel ι Ext Body Reply) : List (ι × Span Ctx) :=
  match label with
  | .arrives i request =>
    ((spanOf telemetry methods envFilter propagator request).map (i, ·)).toList
  | .handles .. | .misses _ | .answers .. | .drops _ => []

/-- The spans as they were opened. -/
def opened (labels : List (RpcLabel ι Ext Body Reply)) : List (ι × Span Ctx) :=
  labels.flatMap fun label => label.opens telemetry methods envFilter propagator

/-- Every span holds what was recorded for its request, in the order of the requests. -/
structure Told (labels : List (RpcLabel ι Ext Body Reply)) (s : Serving ι Ctx Ext Body Reply τ) :
    Prop where
  spans : s.traffic.spans = (opened telemetry methods envFilter propagator labels).map
    fun entry => entry.2.recordAll (recordsOf entry.1 labels)
  distinct : ((opened telemetry methods envFilter propagator labels).map Prod.fst).Nodup
  silent : ∀ i, s.flights i = none → labelsOf i labels = []
  lives : ∀ i flight, s.flights i = some flight → ∃ request,
    Life methods notFound i request flight.stage (labelsOf i labels) ∧
      flight.request.path = request.path
  numbered : ∀ i flight, s.flights i = some flight →
    match rpcSpan flight.request.extensions with
    | some number => ∃ span,
      (opened telemetry methods envFilter propagator labels)[number]? = some (i, span)
    | none => i ∉ (opened telemetry methods envFilter propagator labels).map Prod.fst

/-! ## One step more -/

omit [DecidableEq ι] in
variable {telemetry methods envFilter propagator} in
theorem opened_append (labels labels' : List (RpcLabel ι Ext Body Reply)) :
    opened telemetry methods envFilter propagator (labels ++ labels') =
      opened telemetry methods envFilter propagator labels ++
        opened telemetry methods envFilter propagator labels' :=
  List.flatMap_append

theorem labelsOf_append_self {i : ι} {label : RpcLabel ι Ext Body Reply} (h : label.process = i)
    (labels : List (RpcLabel ι Ext Body Reply)) :
    labelsOf i (labels ++ [label]) = labelsOf i labels ++ [label] := by
  simp [labelsOf, h]

theorem labelsOf_append_ne {i : ι} {label : RpcLabel ι Ext Body Reply} (h : label.process ≠ i)
    (labels : List (RpcLabel ι Ext Body Reply)) :
    labelsOf i (labels ++ [label]) = labelsOf i labels := by
  simp [labelsOf, h]

theorem recordsOf_append_self {i : ι} {label : RpcLabel ι Ext Body Reply} (h : label.process = i)
    (labels : List (RpcLabel ι Ext Body Reply)) :
    recordsOf i (labels ++ [label]) = recordsOf i labels ++ label.records := by
  rw [recordsOf, labelsOf_append_self h, List.flatMap_append, List.flatMap_singleton, recordsOf]

theorem recordsOf_append_ne {i : ι} {label : RpcLabel ι Ext Body Reply} (h : label.process ≠ i)
    (labels : List (RpcLabel ι Ext Body Reply)) :
    recordsOf i (labels ++ [label]) = recordsOf i labels := by
  rw [recordsOf, labelsOf_append_ne h, recordsOf]

/-- Records on a span change that span only. -/
theorem Traffic.recordAll_some (traffic : Traffic Ctx τ) (number : Nat) (fields : List Record) :
    (traffic.recordAll (some number) fields).spans =
      traffic.spans.modify number fun span => span.recordAll fields := by
  induction fields generalizing traffic with
  | nil =>
    show traffic.spans = traffic.spans.modify number fun span => span
    exact (List.modify_id number traffic.spans).symm
  | cons field fields ih =>
    show ((traffic.record (some number) field).recordAll (some number) fields).spans = _
    rw [ih]
    show (traffic.spans.modify number fun span => span.record field).modify number _ = _
    rw [List.modify_modify_eq]
    rfl

theorem Traffic.recordAll_none (traffic : Traffic Ctx τ) (fields : List Record) :
    traffic.recordAll none fields = traffic := by
  induction fields generalizing traffic with
  | nil => rfl
  | cons field fields ih => exact ih traffic

theorem Traffic.spans_recordAll {traffic traffic' : Traffic Ctx τ}
    (h : traffic.spans = traffic'.spans) (span : Option Nat) (fields : List Record) :
    (traffic.recordAll span fields).spans = (traffic'.recordAll span fields).spans := by
  cases span with
  | none => rw [Traffic.recordAll_none, Traffic.recordAll_none, h]
  | some number => rw [Traffic.recordAll_some, Traffic.recordAll_some, h]

omit [DecidableEq ι] in
variable {methods notFound} in
theorem Life.of_handling {i : ι} {request : Request Ext Body}
    {labels : List (RpcLabel ι Ext Body Reply)}
    (h : Life methods notFound i request .handling labels) : labels = [.arrives i request] := by
  cases h
  rfl

omit [DecidableEq ι] in
/-- Entries of distinct owners: what one owner does to its entry is done there alone. -/
theorem modify_map_owned {α β : Type} {entries : List (ι × α)} {i : ι} {a : α} {number : Nat}
    (hdistinct : (entries.map Prod.fst).Nodup) (hentry : entries[number]? = some (i, a))
    {f g : ι × α → β} {change : β → β} (hown : g (i, a) = change (f (i, a)))
    (hothers : ∀ entry ∈ entries, entry.1 ≠ i → g entry = f entry) :
    (entries.map f).modify number change = entries.map g := by
  apply List.ext_getElem?
  intro position
  rw [List.getElem?_modify, List.getElem?_map, List.getElem?_map]
  cases hposition : entries[position]? with
  | none => simp
  | some entry =>
    by_cases heq : number = position
    · subst heq
      rw [hentry, Option.some.injEq] at hposition
      subst hposition
      simp [hown]
    · have hne : entry.1 ≠ i := by
        intro howner
        apply heq
        refine (List.getElem?_inj ?_ hdistinct).mp ?_
        · rw [List.length_map]
          exact (List.getElem?_eq_some_iff.mp hentry).1
        · rw [List.getElem?_map, List.getElem?_map, hentry, hposition]
          simp [howner]
      simp [heq, hothers entry (List.mem_of_getElem? hposition) hne]

variable {telemetry methods envFilter propagator notFound}
  {labels : List (RpcLabel ι Ext Body Reply)} {s s' : Serving ι Ctx Ext Body Reply τ} {i : ι}

/-- The other requests are where they were. -/
theorem Told.lives_update (h : Told telemetry methods envFilter propagator notFound labels s)
    {label : RpcLabel ι Ext Body Reply} (hprocess : label.process = i)
    {flight : Flight Ext Body Reply}
    (hflights : s'.flights = Function.update s.flights i (some flight))
    (hlife : ∃ request,
      Life methods notFound i request flight.stage (labelsOf i labels ++ [label]) ∧
        flight.request.path = request.path) :
    (∀ j, s'.flights j = none → labelsOf j (labels ++ [label]) = []) ∧
      ∀ j flight', s'.flights j = some flight' → ∃ request,
        Life methods notFound j request flight'.stage (labelsOf j (labels ++ [label])) ∧
          flight'.request.path = request.path := by
  constructor
  · intro j hj
    by_cases hji : j = i
    · subst hji
      rw [hflights, Function.update_self] at hj
      cases hj
    · rw [hflights, Function.update_of_ne hji] at hj
      rw [labelsOf_append_ne (by rw [hprocess]; exact Ne.symm hji)]
      exact h.silent j hj
  · intro j flight' hj
    by_cases hji : j = i
    · subst hji
      rw [hflights, Function.update_self, Option.some.injEq] at hj
      subst hj
      rw [labelsOf_append_self hprocess]
      exact hlife
    · rw [hflights, Function.update_of_ne hji] at hj
      rw [labelsOf_append_ne (by rw [hprocess]; exact Ne.symm hji)]
      exact h.lives j flight' hj

/-- A step of a request that is under way, which records on its span and goes on with it. -/
theorem Told.goes_on (h : Told telemetry methods envFilter propagator notFound labels s)
    {label : RpcLabel ι Ext Body Reply} (hprocess : label.process = i)
    (hopens : label.opens telemetry methods envFilter propagator = [])
    {flight : Flight Ext Body Reply} (hflight : s.flights i = some flight) {stage : RpcStage Reply}
    (hflights : s'.flights = Function.update s.flights i (some { flight with stage := stage }))
    (hspans : s'.traffic.spans =
      (s.traffic.recordAll (rpcSpan flight.request.extensions) label.records).spans)
    (hlife : ∀ request : Request Ext Body, flight.request.path = request.path →
      Life methods notFound i request flight.stage (labelsOf i labels) →
      Life methods notFound i request stage (labelsOf i labels ++ [label])) :
    Told telemetry methods envFilter propagator notFound (labels ++ [label]) s' := by
  have hopened : opened telemetry methods envFilter propagator (labels ++ [label]) =
      opened telemetry methods envFilter propagator labels := by
    rw [opened_append]
    show _ ++ (label.opens telemetry methods envFilter propagator ++ []) = _
    rw [hopens, List.append_nil, List.append_nil]
  have hnumbered := h.numbered i flight hflight
  obtain ⟨request, hlives, hpath⟩ := h.lives i flight hflight
  have hupdate := h.lives_update hprocess hflights ⟨request, hlife request hpath hlives, hpath⟩
  constructor
  case spans =>
    rw [hopened, hspans]
    cases hspan : rpcSpan flight.request.extensions with
    | none =>
      rw [hspan] at hnumbered
      rw [Traffic.recordAll_none, h.spans]
      refine List.map_congr_left fun entry hentry => ?_
      have hne : label.process ≠ entry.1 := by
        intro heq
        apply hnumbered
        rw [← hprocess, heq]
        exact List.mem_map_of_mem hentry
      rw [recordsOf_append_ne hne]
    | some number =>
      rw [hspan] at hnumbered
      obtain ⟨span, hentry⟩ := hnumbered
      rw [Traffic.recordAll_some, h.spans]
      refine modify_map_owned h.distinct hentry ?_ ?_
      · rw [recordsOf_append_self hprocess, Span.recordAll_append]
      · intro entry _ hne
        rw [recordsOf_append_ne (by rw [hprocess]; exact hne.symm)]
  case distinct =>
    rw [hopened]
    exact h.distinct
  case silent => exact hupdate.1
  case lives => exact hupdate.2
  case numbered =>
    intro j flight' hj
    rw [hopened]
    by_cases hji : j = i
    · subst hji
      rw [hflights, Function.update_self, Option.some.injEq] at hj
      subst hj
      exact hnumbered
    · rw [hflights, Function.update_of_ne hji] at hj
      exact h.numbered j flight' hj

omit [DecidableEq ι] in
theorem exists_arrives_of_mem_opened {entry : ι × Span Ctx}
    (h : entry ∈ opened telemetry methods envFilter propagator labels) :
    ∃ request, .arrives entry.1 request ∈ labels ∧
      spanOf telemetry methods envFilter propagator request = some entry.2 := by
  obtain ⟨label, hlabel, hentry⟩ := List.mem_flatMap.mp h
  cases label with
  | arrives j request =>
    obtain ⟨span, hspan, heq⟩ : ∃ span,
        spanOf telemetry methods envFilter propagator request = some span ∧ (j, span) = entry := by
      simpa [RpcLabel.opens] using hentry
    subst heq
    exact ⟨request, hlabel, hspan⟩
  | handles => cases hentry
  | misses => cases hentry
  | answers => cases hentry
  | drops => cases hentry

theorem mem_labelsOf {label : RpcLabel ι Ext Body Reply} (h : label ∈ labels) :
    label ∈ labelsOf label.process labels :=
  List.mem_filter.mpr ⟨h, decide_eq_true rfl⟩

variable (telemetry methods envFilter propagator i) in
/-- A request that has come in bears the number of its span, if it was given one. -/
theorem Serving.arrive_flights (s : Serving ι Ctx Ext Body Reply τ) {request : Request Ext Body}
    (hoff : request.extensions.rpcSpan = none) :
    ∃ flight, (s.arrive telemetry methods envFilter propagator i request).flights =
      Function.update s.flights i (some flight) ∧ flight.stage = .handling ∧
        flight.request.path = request.path ∧ rpcSpan flight.request.extensions =
          (spanOf telemetry methods envFilter propagator request).map
            fun _ => s.traffic.spans.length := by
  unfold Serving.arrive spanOf
  cases appSpan telemetry methods propagator request with
  | none => exact ⟨_, rfl, rfl, rfl, by rw [rpcSpan, hoff]; rfl⟩
  | some span =>
    unfold Traffic.openSpan
    cases hfilter : envFilter span with
    | false => exact ⟨_, rfl, rfl, rfl, by simp [hfilter]⟩
    | true => exact ⟨_, rfl, rfl, rfl, by simp [hfilter]⟩

theorem Serving.arrive_spans (s : Serving ι Ctx Ext Body Reply τ) (request : Request Ext Body) :
    (s.arrive telemetry methods envFilter propagator i request).traffic.spans =
      s.traffic.spans ++ (spanOf telemetry methods envFilter propagator request).toList := by
  unfold Serving.arrive spanOf
  cases appSpan telemetry methods propagator request with
  | none => exact (List.append_nil _).symm
  | some span =>
    unfold Traffic.openSpan
    cases hfilter : envFilter span <;> simp [Option.filter_some, hfilter]

omit [DecidableEq ι] in
variable (labels i) in
theorem opened_arrives (request : Request Ext Body) :
    opened telemetry methods envFilter propagator (labels ++ [.arrives i request]) =
      opened telemetry methods envFilter propagator labels ++
        ((spanOf telemetry methods envFilter propagator request).map (i, ·)).toList := by
  rw [opened_append]
  exact congrArg _ (List.append_nil _)

variable (labels i) in
/-- Nothing is recorded for a request when it comes in. -/
theorem recordsOf_arrives (j : ι) (request : Request Ext Body) :
    recordsOf j (labels ++ [.arrives i request]) = recordsOf j labels := by
  by_cases hj : (RpcLabel.arrives i request : RpcLabel ι Ext Body Reply).process = j
  · rw [recordsOf_append_self hj, RpcLabel.records, List.append_nil]
  · exact recordsOf_append_ne hj labels

/-- A request that has not come in has no span. -/
theorem Told.not_mem_opened (h : Told telemetry methods envFilter propagator notFound labels s)
    (hflight : s.flights i = none) :
    i ∉ (opened telemetry methods envFilter propagator labels).map Prod.fst := by
  intro hmem
  obtain ⟨entry, hentry, heq⟩ := List.mem_map.mp hmem
  subst heq
  obtain ⟨earlier, hearlier, _⟩ := exists_arrives_of_mem_opened hentry
  have hof : .arrives entry.1 earlier ∈ labelsOf entry.1 labels := mem_labelsOf hearlier
  rw [h.silent _ hflight] at hof
  cases hof

omit [DecidableEq ι] in
/-- The spans of others that are opened later leave a request the number it bears. -/
theorem numbered_append {entries later : List (ι × Span Ctx)}
    (hlater : ∀ entry ∈ later, entry.1 ≠ i) (number : Option Nat) :
    (match number with
      | some number => ∃ span, entries[number]? = some (i, span)
      | none => i ∉ entries.map Prod.fst) →
    match number with
    | some number => ∃ span, (entries ++ later)[number]? = some (i, span)
    | none => i ∉ (entries ++ later).map Prod.fst := by
  intro h
  cases number with
  | none =>
    show i ∉ _
    rw [List.map_append, List.mem_append]
    rintro (hold | hnew)
    · exact h hold
    · obtain ⟨entry, hentry, heq⟩ := List.mem_map.mp hnew
      exact hlater entry hentry heq
  | some number =>
    obtain ⟨span, hentry⟩ := h
    refine ⟨span, ?_⟩
    rw [List.getElem?_append_left (List.getElem?_eq_some_iff.mp hentry).1]
    exact hentry

/-- A request that comes in has left nothing behind yet. -/
theorem Told.arrive (h : Told telemetry methods envFilter propagator notFound labels s)
    {request : Request Ext Body} (hflight : s.flights i = none)
    (hoff : request.extensions.rpcSpan = none) :
    Told telemetry methods envFilter propagator notFound (labels ++ [.arrives i request])
      (s.arrive telemetry methods envFilter propagator i request) := by
  have hsilent := h.silent i hflight
  have hnew := h.not_mem_opened hflight
  have hlength : s.traffic.spans.length =
      (opened telemetry methods envFilter propagator labels).length := by
    rw [h.spans, List.length_map]
  obtain ⟨flight, hflights, hstage, hpath, hnumber⟩ :=
    s.arrive_flights telemetry methods envFilter propagator i hoff
  have hlife : Life methods notFound i request flight.stage
      (labelsOf i labels ++ [.arrives i request]) := by
    rw [hstage, hsilent]
    exact .handling
  have hupdate := h.lives_update (i := i) rfl hflights ⟨request, hlife, hpath⟩
  constructor
  case spans =>
    rw [opened_arrives, Serving.arrive_spans, List.map_append, h.spans]
    simp only [recordsOf_arrives]
    have hnone : recordsOf i labels = [] := by rw [recordsOf, hsilent, List.flatMap_nil]
    cases spanOf telemetry methods envFilter propagator request with
    | none => rfl
    | some span =>
      simp only [Option.map_some, Option.toList_some, List.map_singleton, hnone]
      rfl
  case distinct =>
    rw [opened_arrives, List.map_append]
    cases spanOf telemetry methods envFilter propagator request with
    | none => simpa using h.distinct
    | some span =>
      refine List.nodup_append.mpr ⟨h.distinct, by simp, ?_⟩
      intro j hj j' hj' heq
      simp only [Option.map_some, Option.toList_some, List.map_singleton,
        List.mem_singleton] at hj'
      subst heq hj'
      exact hnew hj
  case silent => exact hupdate.1
  case lives => exact hupdate.2
  case numbered =>
    intro j flight' hj
    rw [opened_arrives]
    by_cases hji : j = i
    · subst hji
      rw [hflights, Function.update_self, Option.some.injEq] at hj
      subst hj
      rw [hnumber]
      cases spanOf telemetry methods envFilter propagator request with
      | none => simpa using hnew
      | some span =>
        refine ⟨span, ?_⟩
        simp [hlength]
    · rw [hflights, Function.update_of_ne hji] at hj
      refine numbered_append ?_ _ (h.numbered j flight' hj)
      intro entry hentry heq
      obtain ⟨span, _, rfl⟩ : ∃ span,
          spanOf telemetry methods envFilter propagator request = some span ∧
            (i, span) = entry := by
        simpa using hentry
      exact hji heq.symm

theorem Told.step (h : Told telemetry methods envFilter propagator notFound labels s)
    {label : RpcLabel ι Ext Body Reply}
    (hstep : RpcStep telemetry methods envFilter propagator notFound s label s') :
    Told telemetry methods envFilter propagator notFound (labels ++ [label]) s' := by
  cases hstep with
  | arrives hflight hoff => exact h.arrive hflight hoff
  | handles outcome response service hflight hpath =>
    refine h.goes_on rfl rfl hflight rfl ?_ ?_
    · refine Traffic.spans_recordAll ?_ _ _
      rfl
    · intro request heq hlife
      rw [hlife.of_handling]
      exact .handled outcome response (heq ▸ hpath)
  | misses hflight hpath =>
    refine h.goes_on rfl rfl hflight rfl rfl ?_
    intro request heq hlife
    rw [hlife.of_handling]
    exact .missed (heq ▸ hpath)
  | answers _ hflight =>
    refine h.goes_on rfl rfl hflight rfl ?_ ?_
    · refine Traffic.spans_recordAll ?_ _ _
      rfl
    · intro request heq hlife
      rw [heq]
      exact hlife.answered
  | drops hflight hstage =>
    refine h.goes_on rfl rfl hflight rfl rfl ?_
    intro request _ hlife
    exact hlife.dropped hstage

theorem Told.run {service : τ}
    (hrun : Trace (RpcStep telemetry methods envFilter propagator notFound)
      ⟨⟨[], [], service⟩, fun _ => none⟩ labels s) :
    Told telemetry methods envFilter propagator notFound labels s := by
  refine Trace.history (I := Told telemetry methods envFilter propagator notFound)
    (fun h hstep => h.step hstep) [] hrun ?_
  refine ⟨rfl, List.nodup_nil, fun _ _ => rfl, ?_, ?_⟩
  · intro i flight h
    cases h
  · intro i flight h
    cases h

end App

end QuizArena.Server
