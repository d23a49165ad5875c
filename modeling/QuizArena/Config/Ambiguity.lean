import QuizArena.Config.Precedence

/-!
# Ambiguous variable names

Two fields may derive one variable name, within a section or across sections. The
map of claimed names grows over all the extractions on one `AppConfig`, and what a
single extraction does with it decides whether a whole run of them succeeds. An
extraction under more claims does what it does under fewer or fails as ambiguous;
together with what the claims of a run are, this makes the outcome of a run
independent of the order of its extractions.
-/

namespace QuizArena.Config

open Lib

variable {L : Type}

/-- Whether the error is that of an ambiguous name. -/
def SectionError.isAmbiguous : SectionError → Bool
  | .ambiguous _ _ _ => true
  | _ => false

/-- An extraction of a section, its name and field names without dots. -/
structure SectionCall (L : Type) where
  name : String
  shape : Shape L
  aliases : List (String × String)
  isStruct : shape.namedFields.isSome
  dotFreeName : '.' ∉ name.toList
  dotFreeFields : shape.DotFreeNames

namespace AppConfig

/-- The extraction of a call. -/
def extract (deps : Externals L) (app : AppConfig) (call : SectionCall L) :
    Except SectionError (Datum L) × AppConfig :=
  app.sectionOf deps call.name call.shape call.aliases

/-- The extractions of a list on one `AppConfig`, with the result of each. -/
def sections (deps : Externals L) :
    List (SectionCall L) → AppConfig → List (Except SectionError (Datum L)) × AppConfig
  | [], app => ([], app)
  | call :: calls, app =>
    let out := app.extract deps call
    let rest := sections deps calls out.2
    (out.1 :: rest.1, rest.2)

/-! ## More claims -/

/-- The second configuration differs in having more claims. -/
structure Extends (app app' : AppConfig) : Prop where
  env_eq : app'.env = app.env
  tree_eq : app'.tree = app.tree
  claimed : ∀ var target, app.claimed var = some target → app'.claimed var = some target

/-- The second outcome is the first one, or it is ambiguous. -/
def Agrees {α : Type} (out out' : Except SectionError α × AppConfig) : Prop :=
  (∃ error, out'.1 = .error error ∧ error.isAmbiguous = true) ∨
    (out'.1 = out.1 ∧ Extends out.2 out'.2)

theorem claim_agrees {app app' : AppConfig} (h : Extends app app') (var name : String)
    (path : List String) : Agrees (app.claim var name path) (app'.claim var name path) := by
  rcases claim_cases app' var name path with
    ⟨out', hout', henv', htree', hclaimed', hfree'⟩ | ⟨existing, _, _, hout'⟩
  · rcases claim_cases app var name path with
      ⟨out, hout, henv, htree, hclaimed, _⟩ | ⟨existing, hexisting, hne, _⟩
    · refine Or.inr ⟨by rw [hout, hout'], ?_⟩
      rw [hout, hout']
      refine ⟨?_, ?_, ?_⟩
      · rw [henv', henv, h.env_eq]
      · rw [htree', htree, h.tree_eq]
      · intro var' target' hvar
        rw [hclaimed] at hvar
        rw [hclaimed']
        by_cases heq : var' = var
        · subst heq
          rw [Function.update_self] at hvar ⊢
          exact hvar
        · rw [Function.update_of_ne heq] at hvar ⊢
          exact h.claimed var' target' hvar
    · -- the claim refused under fewer claims cannot be granted under more
      exfalso
      have hexisting' := h.claimed var existing hexisting
      rcases hfree' with hnone | hsome
      · rw [hnone] at hexisting'
        cases hexisting'
      · rw [hsome, Option.some.injEq] at hexisting'
        exact hne hexisting'.symm
  · exact Or.inl ⟨_, by rw [hout'], rfl⟩

theorem applyEnv_agrees (deps : Externals L) {app app' : AppConfig} (h : Extends app app')
    (tree : Value) (var name : String) (leaf : Leaf) :
    Agrees (app.applyEnv deps tree var name leaf) (app'.applyEnv deps tree var name leaf) := by
  have hclaim := claim_agrees h var name leaf.path
  unfold applyEnv
  generalize app.claim var name leaf.path = out at hclaim ⊢
  generalize app'.claim var name leaf.path = out' at hclaim ⊢
  obtain ⟨result, app₁⟩ := out
  obtain ⟨result', app₁'⟩ := out'
  rcases hclaim with ⟨error, herror, hambiguous⟩ | ⟨heq, hextends⟩
  · simp only at herror
    subst herror
    exact Or.inl ⟨error, rfl, hambiguous⟩
  · simp only at heq hextends
    subst heq
    refine Or.inr ?_
    cases result' with
    | error error => exact ⟨rfl, hextends⟩
    | ok granted =>
      simp only [hextends.env_eq]
      cases app₁.env var with
      | none => exact ⟨rfl, hextends⟩
      | some raw =>
        simp only
        cases raw.toStr with
        | none => exact ⟨rfl, hextends⟩
        | some text =>
          simp only
          cases parseEnvValue deps text leaf.kind with
          | error expected => exact ⟨rfl, hextends⟩
          | ok value =>
            simp only
            cases insertAtPath tree leaf.path value with
            | none => exact ⟨rfl, hextends⟩
            | some tree => exact ⟨rfl, hextends⟩

theorem applyAll_agrees (deps : Externals L) (name : String) (sources : List Source)
    {app app' : AppConfig} (h : Extends app app') (tree : Value) (applied : List String) :
    Agrees (applyAll deps name sources tree applied app)
      (applyAll deps name sources tree applied app') := by
  induction sources generalizing app app' tree applied with
  | nil => exact Or.inr ⟨rfl, h⟩
  | cons source sources ih =>
    obtain ⟨var, leaf⟩ := source
    have hstep := applyEnv_agrees deps h tree var name leaf
    unfold applyAll
    generalize app.applyEnv deps tree var name leaf = out at hstep ⊢
    generalize app'.applyEnv deps tree var name leaf = out' at hstep ⊢
    obtain ⟨result, app₁⟩ := out
    obtain ⟨result', app₁'⟩ := out'
    rcases hstep with ⟨error, herror, hambiguous⟩ | ⟨heq, hextends⟩
    · simp only at herror
      subst herror
      exact Or.inl ⟨error, rfl, hambiguous⟩
    · simp only at heq hextends
      subst heq
      cases result' with
      | error error => exact Or.inr ⟨rfl, hextends⟩
      | ok pass => exact ih hextends _ _

theorem resolve_agrees (deps : Externals L) {app app' : AppConfig} (h : Extends app app')
    (name : String) (shape : Shape L) (aliases : List (String × String)) :
    Agrees (app.resolve deps name shape aliases) (app'.resolve deps name shape aliases) := by
  have hsection : app'.sectionTree name = app.sectionTree name := by
    unfold sectionTree
    rw [h.tree_eq]
  cases htree : app.sectionTree name with
  | error error =>
    simp only [resolve, hsection, htree]
    exact Or.inr ⟨rfl, h⟩
  | ok tree =>
    rw [resolve_eq htree, resolve_eq (hsection.trans htree)]
    have hpass := applyAll_agrees deps name (aliasSources name shape.leaves aliases).1 h tree []
    generalize applyAll deps name (aliasSources name shape.leaves aliases).1 tree [] app = out
      at hpass ⊢
    generalize applyAll deps name (aliasSources name shape.leaves aliases).1 tree [] app' = out'
      at hpass ⊢
    obtain ⟨result, app₁⟩ := out
    obtain ⟨result', app₁'⟩ := out'
    rcases hpass with ⟨error, herror, hambiguous⟩ | ⟨heq, hextends⟩
    · simp only at herror
      subst herror
      exact Or.inl ⟨error, rfl, hambiguous⟩
    · simp only at heq hextends
      subst heq
      cases result' with
      | error error => exact Or.inr ⟨rfl, hextends⟩
      | ok pass =>
        cases (aliasSources name shape.leaves aliases).2 with
        | some error => exact Or.inr ⟨rfl, hextends⟩
        | none => exact applyAll_agrees deps name _ hextends _ _

/-- An extraction under more claims has the same result or is ambiguous. -/
theorem extract_agrees (deps : Externals L) {app app' : AppConfig} (h : Extends app app')
    (call : SectionCall L) : Agrees (app.extract deps call) (app'.extract deps call) := by
  have hresolve := resolve_agrees deps h call.name call.shape call.aliases
  unfold extract sectionOf
  generalize app.resolve deps call.name call.shape call.aliases = out at hresolve ⊢
  generalize app'.resolve deps call.name call.shape call.aliases = out' at hresolve ⊢
  obtain ⟨result, app₁⟩ := out
  obtain ⟨result', app₁'⟩ := out'
  rcases hresolve with ⟨error, herror, hambiguous⟩ | ⟨heq, hextends⟩
  · simp only at herror
    subst herror
    exact Or.inl ⟨error, rfl, hambiguous⟩
  · simp only at heq hextends
    subst heq
    refine Or.inr ?_
    cases result' with
    | error error => exact ⟨rfl, hextends⟩
    | ok pass =>
      simp only
      cases missingRequiredField call.shape (addMissingTables call.shape pass.1) with
      | some field => exact ⟨rfl, hextends⟩
      | none =>
        simp only
        cases deps.fromValue call.shape (addMissingTables call.shape pass.1) with
        | error error => exact ⟨rfl, hextends⟩
        | ok value => exact ⟨rfl, hextends⟩

end AppConfig

/-! ## The targets of a call -/

/-- A variable name of the call with the field it resolves to. -/
def SectionCall.Resolves (tables : UnicodeTables) (call : SectionCall L) (var : String)
    (target : String × List String) : Prop :=
  ∃ leaf ∈ call.shape.leaves, AppConfig.NameOf tables call.name call.aliases var leaf ∧
    target = (call.name, leaf.path)

/-- Some variable name of the calls resolves to two different fields. -/
def NamesCollide (tables : UnicodeTables) (calls : List (SectionCall L)) : Prop :=
  ∃ call ∈ calls, ∃ call' ∈ calls, ∃ var target target',
    call.Resolves tables var target ∧ call'.Resolves tables var target' ∧ target ≠ target'

/-- Every extraction of the run succeeded. -/
def Succeeds (results : List (Except SectionError (Datum L))) : Prop :=
  ∀ result ∈ results, ∃ value, result = .ok value

namespace SectionCall

/-- The target recorded for a field. -/
def recorded (target : String × List String) : String := claimTarget target.1 target.2

/-- The claims of a call. -/
def claims (tables : UnicodeTables) (call : SectionCall L) : List (String × String) :=
  AppConfig.claims tables call.name call.shape.leaves call.aliases

theorem path_ne_nil (call : SectionCall L) {leaf : Leaf} (h : leaf ∈ call.shape.leaves) :
    leaf.path ≠ [] := by
  obtain ⟨fields, hfields⟩ := Option.isSome_iff_exists.mp call.isStruct
  exact Shape.path_ne_nil hfields h

/-- Every claim records a field its name resolves to. -/
theorem resolves_of_mem_claims {tables : UnicodeTables} {call : SectionCall L}
    {var recordedTarget : String} (h : (var, recordedTarget) ∈ call.claims tables) :
    ∃ target, call.Resolves tables var target ∧ recorded target = recordedTarget := by
  obtain ⟨source, hsource, hclaim⟩ := List.mem_map.mp h
  obtain ⟨rfl, rfl⟩ := Prod.mk.inj hclaim
  have hleaf := AppConfig.mem_leaves_of_sources hsource
  refine ⟨(call.name, source.2.path), ⟨source.2, hleaf, ?_, rfl⟩, rfl⟩
  rcases List.mem_append.mp hsource with halias | hderived
  · exact Or.inr (AppConfig.mem_of_aliasSources halias).2
  · obtain ⟨leaf, _, rfl⟩ := List.mem_map.mp hderived
    exact Or.inl rfl

/-- With every alias known, whatever a name resolves to is claimed. -/
theorem mem_claims_of_resolves {tables : UnicodeTables} {call : SectionCall L} {var : String}
    {target : String × List String}
    (hknown : (AppConfig.aliasSources call.name call.shape.leaves call.aliases).2 = none)
    (h : call.Resolves tables var target) : (var, recorded target) ∈ call.claims tables := by
  obtain ⟨leaf, hleaf, hname, rfl⟩ := h
  rcases hname with rfl | halias
  · refine List.mem_map.mpr ⟨(envVarName tables call.name leaf.path, leaf), ?_, rfl⟩
    exact List.mem_append_right _ (List.mem_map.mpr ⟨leaf, hleaf, rfl⟩)
  · -- the alias goes to the first leaf of its dotted path, which need not be this one
    cases htarget : AppConfig.aliasLeaf call.shape.leaves (".".intercalate leaf.path) with
    | none =>
      have := List.find?_eq_none.mp htarget leaf hleaf
      simp at this
    | some leaf' =>
      have hjoin := AppConfig.aliasLeaf_path htarget
      have hempty : leaf.path.isEmpty = false := by simpa using call.path_ne_nil hleaf
      have hempty' : leaf'.path.isEmpty = false := by
        simpa using call.path_ne_nil (AppConfig.aliasLeaf_mem htarget)
      refine List.mem_map.mpr ⟨(var, leaf'), ?_, ?_⟩
      · refine List.mem_append_left _ ?_
        rw [AppConfig.aliasSources_eq hknown]
        exact List.mem_filterMap.mpr ⟨_, halias, by rw [htarget]; rfl⟩
      · simp [AppConfig.claimOf, recorded, claimTarget, hempty, hempty', hjoin]

/-- Without dots in the names, a recorded target is that of one field. -/
theorem recorded_injective {tables : UnicodeTables} {call call' : SectionCall L}
    {var var' : String} {target target' : String × List String}
    (h : call.Resolves tables var target) (h' : call'.Resolves tables var' target')
    (heq : recorded target = recorded target') : target = target' := by
  obtain ⟨leaf, hleaf, _, rfl⟩ := h
  obtain ⟨leaf', hleaf', _, rfl⟩ := h'
  have hjoin : ∀ (call : SectionCall L) (leaf : Leaf), leaf ∈ call.shape.leaves →
      recorded (call.name, leaf.path) = ".".intercalate (call.name :: leaf.path) := by
    intro call leaf hleaf
    have hne := call.path_ne_nil hleaf
    have hempty : leaf.path.isEmpty = false := by simpa using hne
    obtain ⟨segment, path, hpath⟩ := List.exists_cons_of_ne_nil hne
    rw [recorded, claimTarget, hempty, hpath]
    simp [String.intercalate_cons_cons]
  have hdots : ∀ (call : SectionCall L) (leaf : Leaf), leaf ∈ call.shape.leaves →
      ∀ segment ∈ call.name :: leaf.path, '.' ∉ segment.toList := by
    intro call leaf hleaf segment hsegment
    rcases List.mem_cons.mp hsegment with rfl | hsegment
    · exact call.dotFreeName
    · exact Shape.dotFree_of_leaf call.dotFreeFields hleaf segment hsegment
  rw [hjoin call leaf hleaf, hjoin call' leaf' hleaf'] at heq
  have hcons := intercalate_dot_injective (List.cons_ne_nil _ _) (List.cons_ne_nil _ _)
    (hdots call leaf hleaf) (hdots call' leaf' hleaf') heq
  obtain ⟨hname, hpath⟩ := List.cons.inj hcons
  rw [hname, hpath]

end SectionCall

/-! ## Runs of extractions -/

namespace AppConfig

/-- What an extraction does to the claims and what its ambiguity means. -/
structure ExtractSpec (deps : Externals L) (app : AppConfig) (call : SectionCall L)
    (out : Except SectionError (Datum L) × AppConfig) : Prop where
  grows : Extends app out.2
  sub : ∀ var target, out.2.claimed var = some target →
    app.claimed var = some target ∨ (var, target) ∈ call.claims deps.tables
  all : ∀ value, out.1 = .ok value →
    (aliasSources call.name call.shape.leaves call.aliases).2 = none ∧
      ∀ claim ∈ call.claims deps.tables, out.2.claimed claim.1 = some claim.2
  ambiguous : ∀ error, out.1 = .error error → error.isAmbiguous = true →
    Clash app.claimed (call.claims deps.tables)

/-- The values alone are never ambiguous. -/
theorem resolveValue_not_ambiguous {deps : Externals L} {app : AppConfig} {name : String}
    {shape : Shape L} {aliases : List (String × String)} {error : SectionError}
    (h : resolveValue deps app name shape aliases = .error error) : error.isAmbiguous = false := by
  cases resolveValue_error h <;> rfl

theorem extract_spec (deps : Externals L) (app : AppConfig) (call : SectionCall L) :
    ExtractSpec deps app call (app.extract deps call) := by
  have spec := resolve_spec deps app call.name call.isStruct call.aliases
  have hvalue : ∀ result, (app.resolve deps call.name call.shape call.aliases).1 = .ok result →
      (aliasSources call.name call.shape.leaves call.aliases).2 = none := by
    intro result hok
    exact ((resolve_ok_iff deps app call.name call.isStruct call.aliases).mp ⟨result, hok⟩).2.1
  unfold extract sectionOf
  generalize app.resolve deps call.name call.shape call.aliases = out at spec hvalue ⊢
  obtain ⟨result, app'⟩ := out
  have hextends : Extends app app' := ⟨spec.env_eq, spec.tree_eq, spec.mono⟩
  cases result with
  | error error =>
    refine ⟨hextends, spec.sub, (by intro _ h; cases h), ?_⟩
    intro error' herror hambiguous
    cases herror
    rcases spec.value with h | ⟨_, hclash⟩
    · rw [resolveValue_not_ambiguous h.symm] at hambiguous
      cases hambiguous
    · exact hclash
  | ok pass =>
    have hknown := hvalue pass rfl
    have hall := spec.all pass rfl
    simp only
    cases missingRequiredField call.shape (addMissingTables call.shape pass.1) with
    | some field =>
      refine ⟨hextends, spec.sub, (by intro _ h; cases h), ?_⟩
      intro error herror hambiguous
      cases herror
      cases hambiguous
    | none =>
      simp only
      cases deps.fromValue call.shape (addMissingTables call.shape pass.1) with
      | error message =>
        refine ⟨hextends, spec.sub, (by intro _ h; cases h), ?_⟩
        intro error herror hambiguous
        cases herror
        cases hambiguous
      | ok value =>
        exact ⟨hextends, spec.sub, fun _ _ => ⟨hknown, hall⟩, by intro _ h; cases h⟩

theorem Extends.trans {app app' app'' : AppConfig} (h : Extends app app')
    (h' : Extends app' app'') : Extends app app'' where
  env_eq := h'.env_eq.trans h.env_eq
  tree_eq := h'.tree_eq.trans h.tree_eq
  claimed := fun var target hvar => h'.claimed var target (h.claimed var target hvar)

theorem sections_extends (deps : Externals L) (calls : List (SectionCall L)) (app : AppConfig) :
    Extends app (app.sections deps calls).2 := by
  induction calls generalizing app with
  | nil => exact ⟨rfl, rfl, fun _ _ h => h⟩
  | cons call calls ih => exact (extract_spec deps app call).grows.trans (ih _)

theorem sections_append (deps : Externals L) (calls calls' : List (SectionCall L))
    (app : AppConfig) :
    app.sections deps (calls ++ calls') =
      ((app.sections deps calls).1 ++ ((app.sections deps calls).2.sections deps calls').1,
        ((app.sections deps calls).2.sections deps calls').2) := by
  induction calls generalizing app with
  | nil => rfl
  | cons call calls ih =>
    simp only [List.cons_append, sections, ih]

/-- Every claim of a run is one of its calls'. -/
theorem claimed_sections (deps : Externals L) (calls : List (SectionCall L)) (app : AppConfig)
    {var target : String} (h : (app.sections deps calls).2.claimed var = some target) :
    app.claimed var = some target ∨ ∃ call ∈ calls, (var, target) ∈ call.claims deps.tables := by
  induction calls generalizing app with
  | nil => exact Or.inl h
  | cons call calls ih =>
    rcases ih _ h with hbefore | ⟨call', hcall', hclaim⟩
    · rcases (extract_spec deps app call).sub var target hbefore with hold | hnew
      · exact Or.inl hold
      · exact Or.inr ⟨call, List.mem_cons_self, hnew⟩
    · exact Or.inr ⟨call', List.mem_cons_of_mem _ hcall', hclaim⟩

/-- A run that succeeds has made the claims of all its calls. -/
theorem claimed_of_succeeds {deps : Externals L} {calls : List (SectionCall L)} {app : AppConfig}
    (h : Succeeds (app.sections deps calls).1) {call : SectionCall L} (hcall : call ∈ calls) :
    (aliasSources call.name call.shape.leaves call.aliases).2 = none ∧
      ∀ claim ∈ call.claims deps.tables,
        (app.sections deps calls).2.claimed claim.1 = some claim.2 := by
  induction calls generalizing app with
  | nil => cases hcall
  | cons call' calls ih =>
    have hhead : ∃ value, (app.extract deps call').1 = .ok value := h _ List.mem_cons_self
    have htail : Succeeds ((app.extract deps call').2.sections deps calls).1 := by
      intro result hresult
      exact h result (List.mem_cons_of_mem _ hresult)
    rcases List.mem_cons.mp hcall with rfl | hcall
    · obtain ⟨value, hvalue⟩ := hhead
      obtain ⟨hknown, hall⟩ := (extract_spec deps app call).all value hvalue
      refine ⟨hknown, ?_⟩
      intro claim hclaim
      exact (sections_extends deps calls _).claimed _ _ (hall claim hclaim)
    · exact ih htail hcall

/-- Every result of a run is that of the call alone, or ambiguous. -/
theorem sections_agree (deps : Externals L) (calls : List (SectionCall L)) {fresh app : AppConfig}
    (h : Extends fresh app) :
    List.Forall₂ (fun call result => result = (fresh.extract deps call).1 ∨
      ∃ error, result = .error error ∧ error.isAmbiguous = true) calls
      (app.sections deps calls).1 := by
  induction calls generalizing app with
  | nil => exact .nil
  | cons call calls ih =>
    refine .cons ?_ (ih (h.trans (extract_spec deps app call).grows))
    rcases extract_agrees deps h call with ⟨error, herror, hambiguous⟩ | ⟨heq, _⟩
    · exact Or.inr ⟨error, herror, hambiguous⟩
    · exact Or.inl heq

/-- An ambiguity in a run is two fields sharing a name. -/
theorem collide_of_ambiguous {deps : Externals L} {tree : String → Except ConfigError ConfigValue}
    {env : String → Option OsString} {calls : List (SectionCall L)} {error : SectionError}
    (h : .error error ∈ ((new tree env).sections deps calls).1)
    (hambiguous : error.isAmbiguous = true) : NamesCollide deps.tables calls := by
  induction calls using List.reverseRecOn with
  | nil => cases h
  | append_singleton calls call ih =>
    rw [sections_append] at h
    rcases List.mem_append.mp h with hbefore | hlast
    · obtain ⟨call₁, h₁, call₂, h₂, hcollide⟩ := ih hbefore
      exact ⟨call₁, List.mem_append_left _ h₁, call₂, List.mem_append_left _ h₂, hcollide⟩
    · simp only [sections, List.mem_singleton] at hlast
      obtain ⟨var, target, existing, hmem, hne, hex⟩ :=
        (extract_spec deps _ call).ambiguous error hlast.symm hambiguous
      obtain ⟨field, hresolves, hfield⟩ := SectionCall.resolves_of_mem_claims hmem
      have hother : ∃ call' ∈ calls ++ [call], (var, existing) ∈ call'.claims deps.tables := by
        rcases hex with hex | hex
        · rcases claimed_sections deps calls _ hex with hnone | ⟨call', hcall', hclaim⟩
          · cases hnone
          · exact ⟨call', List.mem_append_left _ hcall', hclaim⟩
        · exact ⟨call, by simp, hex⟩
      obtain ⟨call', hcall', hclaim⟩ := hother
      obtain ⟨field', hresolves', hfield'⟩ := SectionCall.resolves_of_mem_claims hclaim
      refine ⟨call', hcall', call, by simp, var, field', field, hresolves', hresolves, ?_⟩
      intro heq
      rw [← hfield, ← hfield', heq] at hne
      exact hne rfl

/-- No name collides among the calls of a run that succeeds. -/
theorem not_collide_of_succeeds {deps : Externals L} {app : AppConfig}
    {calls : List (SectionCall L)} (h : Succeeds (app.sections deps calls).1) :
    ¬ NamesCollide deps.tables calls := by
  intro hcollide
  obtain ⟨call, hcall, call', hcall', var, target, target', hres, hres', hne⟩ := hcollide
  obtain ⟨hknown, hall⟩ := claimed_of_succeeds h hcall
  obtain ⟨hknown', hall'⟩ := claimed_of_succeeds h hcall'
  have hclaimed := hall _ (SectionCall.mem_claims_of_resolves hknown hres)
  have hclaimed' := hall' _ (SectionCall.mem_claims_of_resolves hknown' hres')
  rw [hclaimed, Option.some.injEq] at hclaimed'
  exact hne (SectionCall.recorded_injective hres hres' hclaimed')

end AppConfig

/-- The extraction of a call on a configuration nothing has been extracted from. -/
def aloneResult (deps : Externals L) (tree : String → Except ConfigError ConfigValue)
    (env : String → Option OsString) (call : SectionCall L) : Except SectionError (Datum L) :=
  ((AppConfig.new tree env).extract deps call).1

section Runs

variable (deps : Externals L) (tree : String → Except ConfigError ConfigValue)
  (env : String → Option OsString)

/-- The results of a run from a configuration nothing has been extracted from. -/
def runResults (calls : List (SectionCall L)) : List (Except SectionError (Datum L)) :=
  ((AppConfig.new tree env).sections deps calls).1

theorem forall₂_runResults (calls : List (SectionCall L)) :
    List.Forall₂ (fun call result => result = aloneResult deps tree env call ∨
      ∃ error, result = .error error ∧ error.isAmbiguous = true) calls
      (runResults deps tree env calls) :=
  AppConfig.sections_agree deps calls ⟨rfl, rfl, fun _ _ h => h⟩

variable {deps tree env}

/-- Without a collision every call has the result it has alone. -/
theorem runResults_of_not_collide {calls : List (SectionCall L)}
    (h : ¬ NamesCollide deps.tables calls) :
    runResults deps tree env calls = calls.map (aloneResult deps tree env) := by
  have hall := forall₂_runResults deps tree env calls
  have hclear : ∀ error, .error error ∈ runResults deps tree env calls →
      error.isAmbiguous = false := by
    intro error herror
    rw [Bool.eq_false_iff]
    intro hambiguous
    exact h (AppConfig.collide_of_ambiguous herror hambiguous)
  revert hall hclear
  generalize runResults deps tree env calls = results
  intro hall hclear
  clear h
  induction hall with
  | nil => rfl
  | cons hhead _ ih =>
    rw [List.map_cons, ih fun error herror => hclear error (List.mem_cons_of_mem _ herror)]
    rcases hhead with heq | ⟨error, heq, hambiguous⟩
    · rw [heq]
    · subst heq
      rw [hclear error List.mem_cons_self] at hambiguous
      cases hambiguous

theorem NamesCollide.perm {tables : UnicodeTables} {calls calls' : List (SectionCall L)}
    (hperm : calls.Perm calls') (h : NamesCollide tables calls) : NamesCollide tables calls' := by
  obtain ⟨call₁, h₁, call₂, h₂, hcollide⟩ := h
  exact ⟨call₁, hperm.mem_iff.mp h₁, call₂, hperm.mem_iff.mp h₂, hcollide⟩

theorem succeeds_perm {calls calls' : List (SectionCall L)} (hperm : calls.Perm calls')
    (h : Succeeds (runResults deps tree env calls)) :
    Succeeds (runResults deps tree env calls') := by
  have hclear : ¬ NamesCollide deps.tables calls := AppConfig.not_collide_of_succeeds h
  have hclear' : ¬ NamesCollide deps.tables calls' := fun h' => hclear (h'.perm hperm.symm)
  rw [runResults_of_not_collide hclear']
  rw [runResults_of_not_collide hclear] at h
  intro result hresult
  exact h result ((hperm.map _).mem_iff.mpr hresult)

/-- What fails in a run fails alone, or is ambiguous. -/
theorem error_of_mem_runResults {calls : List (SectionCall L)} {error : SectionError}
    (h : .error error ∈ runResults deps tree env calls) :
    error.isAmbiguous = true ∨ ∃ call ∈ calls, aloneResult deps tree env call = .error error := by
  have hall := forall₂_runResults deps tree env calls
  revert hall h
  generalize runResults deps tree env calls = results
  intro h hall
  induction hall with
  | nil => cases h
  | cons hhead _ ih =>
    rcases List.mem_cons.mp h with heq | h
    · rcases hhead with halone | ⟨error', herror', hambiguous⟩
      · exact Or.inr ⟨_, List.mem_cons_self, by rw [← halone, heq]⟩
      · rw [herror'] at heq
        cases heq
        exact Or.inl hambiguous
    · rcases ih h with hambiguous | ⟨call, hcall, halone⟩
      · exact Or.inl hambiguous
      · exact Or.inr ⟨call, List.mem_cons_of_mem _ hcall, halone⟩

end Runs

/-- Ambiguity detection is complete and sound, and the outcome of a run of extractions
    does not depend on their order. -/
theorem ambiguity_detection (deps : Externals L) (tree : String → Except ConfigError ConfigValue)
    (env : String → Option OsString) (calls : List (SectionCall L)) :
    (Succeeds (runResults deps tree env calls) → ¬ NamesCollide deps.tables calls) ∧
    (NamesCollide deps.tables calls → ∀ calls', calls.Perm calls' →
      ¬ Succeeds (runResults deps tree env calls') ∧
      ((∀ call ∈ calls, ∀ error, aloneResult deps tree env call = .error error →
          error.isAmbiguous = true) →
        ∀ error, .error error ∈ runResults deps tree env calls' → error.isAmbiguous = true)) ∧
    (¬ NamesCollide deps.tables calls →
      (∀ error, .error error ∈ runResults deps tree env calls → error.isAmbiguous = false) ∧
      ∀ call ∈ calls, runResults deps tree env (calls ++ [call]) =
        runResults deps tree env calls ++ [aloneResult deps tree env call] ∧
        (call, aloneResult deps tree env call) ∈ calls.zip (runResults deps tree env calls)) ∧
    (∀ calls', calls.Perm calls' →
      (Succeeds (runResults deps tree env calls) ↔ Succeeds (runResults deps tree env calls')) ∧
      (Succeeds (runResults deps tree env calls) → ∀ call result,
        (call, result) ∈ calls.zip (runResults deps tree env calls) ↔
          (call, result) ∈ calls'.zip (runResults deps tree env calls'))) := by
  refine ⟨AppConfig.not_collide_of_succeeds, ?_, ?_, ?_⟩
  · intro hcollide calls' hperm
    refine ⟨fun h => AppConfig.not_collide_of_succeeds h (hcollide.perm hperm), ?_⟩
    intro halone error herror
    rcases error_of_mem_runResults herror with hambiguous | ⟨call, hcall, hresult⟩
    · exact hambiguous
    · exact halone call (hperm.mem_iff.mpr hcall) error hresult
  · intro hclear
    constructor
    · intro error herror
      rw [Bool.eq_false_iff]
      intro hambiguous
      exact hclear (AppConfig.collide_of_ambiguous herror hambiguous)
    · intro call hcall
      have hsame : ∀ call' ∈ calls ++ [call], call' ∈ calls := by
        intro call' hcall'
        rcases List.mem_append.mp hcall' with hcall' | hcall'
        · exact hcall'
        · rw [List.mem_singleton.mp hcall']
          exact hcall
      have hclear' : ¬ NamesCollide deps.tables (calls ++ [call]) := by
        intro hcollide
        obtain ⟨call₁, h₁, call₂, h₂, hshared⟩ := hcollide
        exact hclear ⟨call₁, hsame call₁ h₁, call₂, hsame call₂ h₂, hshared⟩
      rw [runResults_of_not_collide hclear', runResults_of_not_collide hclear]
      refine ⟨by simp, ?_⟩
      rw [← List.map_prod_left_eq_zip]
      exact List.mem_map.mpr ⟨call, hcall, rfl⟩
  · intro calls' hperm
    refine ⟨⟨succeeds_perm hperm, succeeds_perm hperm.symm⟩, ?_⟩
    intro hok call result
    have hclear : ¬ NamesCollide deps.tables calls := AppConfig.not_collide_of_succeeds hok
    have hclear' : ¬ NamesCollide deps.tables calls' := fun h => hclear (h.perm hperm.symm)
    rw [runResults_of_not_collide hclear, runResults_of_not_collide hclear',
      ← List.map_prod_left_eq_zip, ← List.map_prod_left_eq_zip]
    exact (hperm.map _).mem_iff

end QuizArena.Config
