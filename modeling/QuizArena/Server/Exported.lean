import Mathlib.Data.List.MinMax
import QuizArena.Kernel.Diagnosis
import QuizArena.Lib.Pipeline

/-!
# What is exported

The subscriber that `init` installs, from what `RUST_LOG` lets through to the batches of the
exporters. The libraries below the exporters emit spans and events of their own while a batch is
shipped. No run of the pipeline ships more batches than it was given spans and events exactly if
the filter before each exporter has a directive for all of these that `RUST_LOG` lets through.
-/

namespace QuizArena.Server

open Lib Kernel

/-! ## Filters -/

/-- `LevelFilter`. -/
inductive LevelFilter where
  | off
  | upTo (most : Level)
  deriving DecidableEq

def verbosity : Level → Nat
  | .error => 1
  | .warn => 2
  | .info => 3
  | .debug => 4
  | .trace => 5

def LevelFilter.enables : LevelFilter → Level → Bool
  | .off, _ => false
  | .upTo most, level => verbosity level ≤ verbosity most

/-- `tracing_subscriber::filter::Targets`. -/
structure Targets where
  fallback : LevelFilter
  directives : List (String × LevelFilter)

/-- `Targets::new`. -/
def Targets.new : Targets := ⟨.off, []⟩

/-- `Targets::with_default`. -/
def Targets.withDefault (targets : Targets) (level : LevelFilter) : Targets :=
  { targets with fallback := level }

/-- `Targets::with_target`. -/
def Targets.withTarget (targets : Targets) (target : String) (level : LevelFilter) : Targets :=
  { targets with directives := targets.directives ++ [(target, level)] }

/-- `exported_targets`. -/
def exportedTargets : Targets :=
  Targets.new.withDefault (.upTo .trace)
    |>.withTarget "opentelemetry" .off
    |>.withTarget "tonic" .off
    |>.withTarget "reqwest" .off
    |>.withTarget "h2" .off
    |>.withTarget "hyper" .off
    |>.withTarget "tower" .off

/-- Whether a directive is about a target. -/
def concerns (directive : String) (target : String) : Bool :=
  directive.toList.isPrefixOf target.toList

/-- What the filter library documents of the level of a target: of the directives that concern
    it the most specific one decides, and the default where there is none. -/
structure MostSpecific (levelOf : Targets → String → LevelFilter) : Prop where
  decides : ∀ {targets : Targets} {target : String} {directive : String × LevelFilter},
    directive ∈ targets.directives → concerns directive.1 target = true →
    (∀ other ∈ targets.directives, concerns other.1 target = true →
      other = directive ∨ other.1.length < directive.1.length) →
    levelOf targets target = directive.2
  falls : ∀ {targets : Targets} {target : String},
    (∀ directive ∈ targets.directives, concerns directive.1 target = false) →
    levelOf targets target = targets.fallback

/-- Of two directives that concern a target one concerns the other one. -/
theorem concerns_or_concerns {directive other target : String}
    (h : concerns directive target = true) (hother : concerns other target = true) :
    concerns directive other = true ∨ concerns other directive = true := by
  unfold concerns at *
  simp only [List.isPrefixOf_iff_prefix] at *
  exact List.prefix_or_prefix_of_prefix h hother

/-- The directives of the exporters' filter are about different targets. -/
theorem exportedTargets_incomparable : ∀ directive ∈ exportedTargets.directives,
    ∀ other ∈ exportedTargets.directives, concerns directive.1 other.1 = true →
      directive = other := by
  decide

/-- A directive of the exporters' filter is about the target. -/
def Silenced (target : String) : Prop :=
  ∃ directive ∈ exportedTargets.directives, concerns directive.1 target = true

/-- What a directive of the exporters' filter concerns is filtered out. -/
theorem levelOf_of_silenced {levelOf : Targets → String → LevelFilter} (h : MostSpecific levelOf)
    {target : String} (hsilenced : Silenced target) : levelOf exportedTargets target = .off := by
  obtain ⟨directive, hmem, hconcerns⟩ := hsilenced
  have hoff : ∀ directive ∈ exportedTargets.directives, directive.2 = .off := by decide
  rw [← hoff directive hmem]
  refine h.decides hmem hconcerns fun other hother hconcerns' => Or.inl ?_
  rcases concerns_or_concerns hconcerns hconcerns' with hprefixed | hprefixed
  · exact (exportedTargets_incomparable directive hmem other hother hprefixed).symm
  · exact exportedTargets_incomparable other hother directive hmem hprefixed

/-- What no directive of the exporters' filter concerns is let through at every level. -/
theorem enables_of_not_silenced {levelOf : Targets → String → LevelFilter}
    (h : MostSpecific levelOf) {target : String} (hsilenced : ¬ Silenced target) (level : Level) :
    (levelOf exportedTargets target).enables level = true := by
  have hnone : ∀ directive ∈ exportedTargets.directives, concerns directive.1 target = false := by
    intro directive hmem
    rw [Bool.eq_false_iff]
    intro hconcerns
    exact hsilenced ⟨directive, hmem, hconcerns⟩
  rw [h.falls hnone]
  cases level <;> decide

/-! ## The pipeline -/

/-- The exporters that a subscriber can feed. -/
inductive Signal where
  | traces
  | logs
  deriving DecidableEq

inductive EmittedKind where
  | span
  | event
  deriving DecidableEq

/-- A span or an event, by what the filters look at. -/
structure Emitted where
  kind : EmittedKind
  target : String
  level : Level
  deriving DecidableEq

/-- The span layer takes the spans and the events in them, the log bridge takes the events. -/
def Signal.takes : Signal → Emitted → Bool
  | .traces, _ => true
  | .logs, record => record.kind = .event

/-- What the workspace emits itself. -/
def FromWorkspace (record : Emitted) : Prop := concerns "quiz_arena" record.target = true

/-- The layers before the exporters, with the filter that each of them has. `noise` is what is
    emitted while a batch is shipped, by whatever library. -/
def exporting (levelOf : Targets → String → LevelFilter) (observed : Emitted → Bool)
    (noise : Emitted → Prop) (filters : Signal → Option Targets) : Pipeline Signal Emitted where
  accepts signal record := observed record && signal.takes record &&
    (filters signal).all fun targets => (levelOf targets record.target).enables record.level
  noise := noise

/-- The filters that `init` gives them. -/
def initFilters : Signal → Option Targets
  | .traces => some exportedTargets
  | .logs => some exportedTargets

variable {levelOf : Targets → String → LevelFilter} {observed : Emitted → Bool}
  {noise : Emitted → Prop}

theorem accepts_init (signal : Signal) (record : Emitted) :
    (exporting levelOf observed noise initFilters).accepts signal record =
      (observed record && signal.takes record &&
        (levelOf exportedTargets record.target).enables record.level) := by
  cases signal <;> rfl

/-- Both exporters are deaf to what is emitted while a batch is shipped exactly if every record
    of it that is observed has a directive. -/
theorem deaf_init_iff (h : MostSpecific levelOf) :
    (exporting levelOf observed noise initFilters).Deaf ↔
      ∀ record, noise record → observed record = true → Silenced record.target := by
  constructor
  · intro hdeaf record hnoise hobserved
    by_contra hsilenced
    have hrefused := hdeaf record hnoise .traces
    rw [accepts_init, hobserved, enables_of_not_silenced h hsilenced] at hrefused
    cases hrefused
  · intro hsilenced record hnoise signal
    rw [accepts_init]
    cases hobserved : observed record with
    | false => rfl
    | true =>
      rw [levelOf_of_silenced h (hsilenced record hnoise hobserved)]
      exact Bool.and_false _

/-- What the workspace emits is kept from no exporter. -/
theorem accepts_of_fromWorkspace (h : MostSpecific levelOf) {record : Emitted}
    (hown : FromWorkspace record) (signal : Signal) :
    (exporting levelOf observed noise initFilters).accepts signal record =
      (observed record && signal.takes record) := by
  have hforeign : ∀ directive ∈ exportedTargets.directives,
      concerns directive.1 "quiz_arena" = false ∧ concerns "quiz_arena" directive.1 = false := by
    decide
  have hsilenced : ¬ Silenced record.target := by
    intro hsilenced
    obtain ⟨directive, hmem, hconcerns⟩ := hsilenced
    obtain ⟨hleft, hright⟩ := hforeign directive hmem
    rcases concerns_or_concerns hconcerns hown with hprefixed | hprefixed
    · rw [hleft] at hprefixed
      cases hprefixed
    · rw [hright] at hprefixed
      cases hprefixed
  rw [accepts_init, enables_of_not_silenced h hsilenced, Bool.and_true]

/-- A layer without a filter takes whatever is observed. -/
theorem accepts_unfiltered {signal : Signal} {record : Emitted} (hobserved : observed record = true)
    (htakes : signal.takes record = true) :
    (exporting levelOf observed noise (Function.update initFilters signal none)).accepts signal
      record = true := by
  show (observed record && signal.takes record &&
    (Function.update initFilters signal none signal).all _) = true
  rw [Function.update_self, hobserved, htakes]
  rfl

/-- How the exporters stand to what is emitted while a batch is shipped. -/
structure QuietExports (levelOf : Targets → String → LevelFilter) (observed : Emitted → Bool)
    (noise : Emitted → Prop) : Prop where
  /-- They do not feed on it exactly if the filter has a directive for all of it that is
      observed. -/
  quiet_iff : (exporting levelOf observed noise initFilters).Quiet ↔
    ∀ record, noise record → observed record = true → Silenced record.target
  /-- What they ship then was emitted by the process itself, in order and at most once. -/
  fair : (exporting levelOf observed noise initFilters).Quiet →
    ∀ labels s, Pipeline.Run (exporting levelOf observed noise initFilters) labels s →
      Pipeline.Fair (exporting levelOf observed noise initFilters) labels s
  own : ∀ record, FromWorkspace record → ∀ signal,
    (exporting levelOf observed noise initFilters).accepts signal record =
      (observed record && signal.takes record)
  /-- It takes both filters. -/
  needed : ∀ signal record, noise record → observed record = true →
    signal.takes record = true →
    ¬ (exporting levelOf observed noise (Function.update initFilters signal none)).Quiet

/-- Whatever `RUST_LOG` lets through and whatever is emitted while a batch is shipped, the
    directives of the filter decide whether the exporters feed on their own output. -/
theorem exports_stay_quiet (levelOf : Targets → String → LevelFilter) (h : MostSpecific levelOf)
    (observed : Emitted → Bool) (noise : Emitted → Prop) :
    QuietExports levelOf observed noise where
  quiet_iff := Pipeline.quiet_iff.trans (deaf_init_iff h)
  fair hquiet _ _ := (Pipeline.quiet_iff.mp hquiet).fair
  own _ hown := accepts_of_fromWorkspace h hown
  needed signal record hnoise hobserved htakes hquiet := by
    have hdeaf := Pipeline.quiet_iff.mp hquiet record hnoise signal
    rw [accepts_unfiltered hobserved htakes] at hdeaf
    cases hdeaf

/-- The longest directive that concerns a target. -/
def longest (targets : Targets) (target : String) : LevelFilter :=
  ((targets.directives.filter fun directive => concerns directive.1 target).argmax
    fun directive => directive.1.length).elim targets.fallback Prod.snd

theorem mostSpecific_longest : MostSpecific longest := by
  constructor
  · intro targets target directive hmem hconcerns hothers
    have hfilter : directive ∈
        targets.directives.filter fun directive => concerns directive.1 target :=
      List.mem_filter.mpr ⟨hmem, hconcerns⟩
    unfold longest
    cases hmax : (targets.directives.filter fun directive => concerns directive.1 target).argmax
        fun directive => directive.1.length with
    | none =>
      rw [List.argmax_eq_none.mp hmax] at hfilter
      cases hfilter
    | some most =>
      have hmost := List.mem_filter.mp (List.argmax_mem hmax)
      have hle := List.le_of_mem_argmax hfilter hmax
      rcases hothers most hmost.1 hmost.2 with rfl | hlt
      · rfl
      · exact absurd hle (Nat.not_le.mpr hlt)
  · intro targets target hnone
    have hempty :
        (targets.directives.filter fun directive => concerns directive.1 target) = [] := by
      rw [List.filter_eq_nil_iff]
      intro directive hmem
      rw [hnone directive hmem]
      simp
    unfold longest
    rw [hempty]
    rfl

/-- `RUST_LOG=debug`. -/
def debugging (record : Emitted) : Bool := (LevelFilter.upTo .debug).enables record.level

/-- What HTTP/2 tells while a batch is shipped is kept out, what TLS tells is not. -/
theorem exports_stay_quiet_longest :
    (exporting longest debugging (fun record => record.target = "h2::client") initFilters).Quiet ∧
      ¬ (exporting longest debugging (fun record => record.target = "rustls::client::hs")
        initFilters).Quiet := by
  constructor
  · refine (exports_stay_quiet longest mostSpecific_longest debugging _).quiet_iff.mpr ?_
    intro record hnoise _
    rw [hnoise]
    unfold Silenced
    decide
  · intro hquiet
    have hsilenced := (exports_stay_quiet longest mostSpecific_longest debugging _).quiet_iff.mp
      hquiet ⟨.event, "rustls::client::hs", .debug⟩ rfl (by decide)
    unfold Silenced at hsilenced
    revert hsilenced
    decide

end QuizArena.Server
