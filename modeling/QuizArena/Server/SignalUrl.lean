import QuizArena.Lib.Separators
import QuizArena.Server.Telemetry

/-!
# The URLs of the signals

Over HTTP every signal is exported to a URL of its own, which `http_signal_url` makes
of the configured endpoint: the path of the signal goes before the endpoint's query or
fragment. The URL is read back from both ends, its suffix from the front and its signal
from the back, so no two signals and no two endpoints share one by accident.
-/

namespace QuizArena.Server

open Lib

/-- The characters a query or a fragment starts with. -/
def startsSuffix (c : Char) : Bool := c == '?' || c == '#'

/-- The endpoint split at its query or fragment: the `suffix_start` of
    `http_signal_url` and the `split_at` there. -/
def splitSuffix (endpoint : String) : String × String :=
  let (base, suffix) := cutAtFirst startsSuffix endpoint.toList
  (String.ofList base, String.ofList suffix)

/-- `str::trim_end_matches`. -/
def trimEndMatches (c : Char) (s : String) : String :=
  String.ofList (s.toList.rdropWhile (· == c))

/-- `http_signal_url`. -/
def httpSignalUrl (endpoint signal : String) : String :=
  let (base, suffix) := splitSuffix endpoint
  trimEndMatches '/' base ++ "/v1/" ++ signal ++ suffix

example : httpSignalUrl "https://collector.example/custom/#fragment" "metrics" =
    "https://collector.example/custom/v1/metrics#fragment" := by decide

theorem splitSuffix_eq_iff {url base suffix : String} :
    splitSuffix url = (base, suffix) ↔
      IsCut startsSuffix url.toList base.toList suffix.toList := by
  rw [← cutAtFirst_eq_iff]
  show (String.ofList (cutAtFirst startsSuffix url.toList).1,
    String.ofList (cutAtFirst startsSuffix url.toList).2) = (base, suffix) ↔ _
  constructor
  · intro h
    obtain ⟨rfl, rfl⟩ := Prod.mk.inj h
    rw [String.toList_ofList, String.toList_ofList]
  · intro h
    rw [h, String.ofList_toList, String.ofList_toList]

theorem isCut_splitSuffix (endpoint : String) :
    IsCut startsSuffix endpoint.toList (splitSuffix endpoint).1.toList
      (splitSuffix endpoint).2.toList := splitSuffix_eq_iff.mp rfl

/-- Trimming takes characters away and adds none. -/
theorem mem_of_mem_trimEndMatches {c a : Char} {s : String}
    (h : a ∈ (trimEndMatches c s).toList) : a ∈ s.toList := by
  rw [trimEndMatches, String.toList_ofList] at h
  exact (List.rdropWhile_prefix _ _).subset h

/-- A name without a slash and without the start of a query or a fragment. -/
def PlainSignal (signal : String) : Prop :=
  ∀ c ∈ signal.toList, c ≠ '/' ∧ c ≠ '?' ∧ c ≠ '#'

theorem PlainSignal.notMem_slash {signal : String} (h : PlainSignal signal) :
    '/' ∉ signal.toList := fun hmem => (h '/' hmem).1 rfl

theorem PlainSignal.not_startsSuffix {signal : String} (h : PlainSignal signal) :
    ∀ c ∈ signal.toList, startsSuffix c = false := by
  intro c hc
  obtain ⟨_, hquery, hfragment⟩ := h c hc
  simp [startsSuffix, hquery, hfragment]

instance (signal : String) : Decidable (PlainSignal signal) :=
  List.decidableBAll (fun c => c ≠ '/' ∧ c ≠ '?' ∧ c ≠ '#') signal.toList

/-- The suffix of the endpoint is the one of the URL. -/
theorem splitSuffix_httpSignalUrl (endpoint : String) {signal : String} (h : PlainSignal signal) :
    splitSuffix (httpSignalUrl endpoint signal) =
      (trimEndMatches '/' (splitSuffix endpoint).1 ++ "/v1/" ++ signal,
        (splitSuffix endpoint).2) := by
  have hcut := isCut_splitSuffix endpoint
  rw [splitSuffix_eq_iff]
  refine ⟨?_, ?_, hcut.after_head⟩
  · rw [← String.toList_append]
    rfl
  · intro c hc
    rw [String.toList_append, String.toList_append, List.append_assoc] at hc
    rcases List.mem_append.mp hc with hbase | hc
    · exact hcut.before_plain c (mem_of_mem_trimEndMatches hbase)
    · rcases List.mem_append.mp hc with hversion | hsignal
      · have hplain : ("/v1/".toList.all fun c => !startsSuffix c) = true := by decide
        simpa using List.all_eq_true.mp hplain c hversion
      · exact h.not_startsSuffix c hsignal

/-- Before the suffix, the signal is what follows the last slash. -/
theorem append_signal_inj {base base' signal signal' : String} (h : PlainSignal signal)
    (h' : PlainSignal signal') :
    base ++ "/v1/" ++ signal = base' ++ "/v1/" ++ signal' ↔ base = base' ∧ signal = signal' := by
  have hversion : "/v1/".toList = "/v1".toList ++ ['/'] := by decide
  have hchars : ∀ base signal : String, (base ++ "/v1/" ++ signal).toList =
      (base.toList ++ "/v1".toList) ++ '/' :: signal.toList := by
    intro base signal
    rw [String.toList_append, String.toList_append, hversion]
    simp only [List.append_assoc, List.singleton_append]
  rw [← String.toList_inj, hchars, hchars, append_sep_inj h.notMem_slash h'.notMem_slash,
    List.append_cancel_right_eq, String.toList_inj, String.toList_inj]

theorem httpSignalUrl_inj {endpoint endpoint' signal signal' : String} (h : PlainSignal signal)
    (h' : PlainSignal signal') :
    httpSignalUrl endpoint signal = httpSignalUrl endpoint' signal' ↔
      signal = signal' ∧ (splitSuffix endpoint).2 = (splitSuffix endpoint').2 ∧
        trimEndMatches '/' (splitSuffix endpoint).1 =
          trimEndMatches '/' (splitSuffix endpoint').1 := by
  constructor
  · intro heq
    have hsplit := congrArg splitSuffix heq
    rw [splitSuffix_httpSignalUrl endpoint h, splitSuffix_httpSignalUrl endpoint' h',
      Prod.mk.injEq, append_signal_inj h h'] at hsplit
    obtain ⟨⟨hbase, hsignal⟩, hsuffix⟩ := hsplit
    exact ⟨hsignal, hsuffix, hbase⟩
  · intro heq
    obtain ⟨rfl, hsuffix, hbase⟩ := heq
    show trimEndMatches '/' (splitSuffix endpoint).1 ++ "/v1/" ++ signal ++
        (splitSuffix endpoint).2 = trimEndMatches '/' (splitSuffix endpoint').1 ++ "/v1/" ++
        signal ++ (splitSuffix endpoint').2
    rw [hsuffix, hbase]

/-- The URL of a signal keeps the endpoint, and two URLs are equal only for one signal
    and endpoints that differ at most in the slashes their bases end in. -/
theorem signal_urls_separate (e₁ e₂ s₁ s₂ : String) (h₁ : PlainSignal s₁) (h₂ : PlainSignal s₂) :
    splitSuffix (httpSignalUrl e₁ s₁) =
        (trimEndMatches '/' (splitSuffix e₁).1 ++ "/v1/" ++ s₁, (splitSuffix e₁).2) ∧
      (httpSignalUrl e₁ s₁ = httpSignalUrl e₂ s₂ ↔
        s₁ = s₂ ∧ (splitSuffix e₁).2 = (splitSuffix e₂).2 ∧
          trimEndMatches '/' (splitSuffix e₁).1 = trimEndMatches '/' (splitSuffix e₂).1) :=
  ⟨splitSuffix_httpSignalUrl e₁ h₁, httpSignalUrl_inj h₁ h₂⟩

theorem signal_urls_separate_tenants :
    splitSuffix (httpSignalUrl "https://collector.example//?tenant=acme/#a" "traces") =
        ("https://collector.example/v1/traces", "?tenant=acme/#a") ∧
      httpSignalUrl "https://collector.example//?tenant=acme/#a" "traces" ≠
        httpSignalUrl "https://collector.example/?tenant=acme/#a" "logs" := by
  have h := signal_urls_separate "https://collector.example//?tenant=acme/#a"
    "https://collector.example/?tenant=acme/#a" "traces" "logs" (by decide) (by decide)
  refine ⟨h.1.trans (by decide), fun heq => ?_⟩
  exact absurd (h.2.mp heq).1 (by decide)

/-! ## The endpoints of the exporters -/

/-- `OtlpProtocol`. -/
inductive OtlpProtocol where
  | grpc
  | httpProtobuf
  deriving DecidableEq, Repr

/-- The signal of an exporter, as its URL has it. -/
def Exporter.signal : Exporter → String
  | .traces => "traces"
  | .metrics => "metrics"
  | .logs => "logs"

/-- The endpoint `init` builds an exporter with. -/
def exporterEndpoint (protocol : OtlpProtocol) (endpoint : String) (exporter : Exporter) : String :=
  match protocol with
  | .grpc => endpoint
  | .httpProtobuf => httpSignalUrl endpoint exporter.signal

end QuizArena.Server
