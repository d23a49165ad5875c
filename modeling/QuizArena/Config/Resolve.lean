import QuizArena.Config.Section

/-!
# What a pass over the environment does

The two loops of `section` are one loop over sources, a source being a variable
and the leaf it sets. Its result is described once and for all here: the claims it
makes, the tree it writes and the errors it ends in. Everything later about
precedence, ambiguity and the agreement of the layers is derived from these
facts and never from the loops themselves.
-/

namespace QuizArena.Config

open Lib

variable {L : Type}

/-- A variable with the leaf it sets. -/
abbrev Source := String × Leaf

/-- The writes of an insertion are those of the keyed tree, and on a table
    neither `expect` is reached. -/
theorem insertAtPath_eq {tree : Value} (h : KeyedTree.IsTable tree) (path : List String)
    (value : Value) :
    insertAtPath tree path value = some (KeyedTree.writePath tree path value) := by
  induction path generalizing tree with
  | nil => rfl
  | cons key path ih =>
    obtain ⟨table, rfl⟩ := Value.isTable_iff.mp h
    cases path with
    | nil =>
      rw [insertAtPath, KeyedTree.writePath, KeyedTree.asTable_of_isTable h]
      rfl
    | cons key' path =>
      rw [insertAtPath, KeyedTree.writePath, KeyedTree.asTable_of_isTable h]
      · simp only [Value.asObject_ofObject, Option.bind_some, Value.child_ofObject,
          Value.put_ofObject]
        cases hget : table.get key with
        | none =>
          rw [ih (Value.isTable_ofObject _)]
          rfl
        | some child =>
          by_cases hchild : child.isObject = true
          · simp only [hchild, if_true]
            rw [ih hchild]
            rfl
          · -- a scalar in the way holds as little as the empty table that replaces it
            have hleaf : ¬ KeyedTree.IsTable child := hchild
            simp only [Bool.not_eq_true] at hchild
            simp only [hchild, Bool.false_eq_true, if_false, Option.getD_some]
            rw [ih (Value.isTable_ofObject _)]
            simp only [KeyedTree.writePath, KeyedTree.asTable, hleaf, if_false,
              KeyedTree.child_leaf key' hleaf]
            simp [KeyedTree.empty]
      · simp

/-- The errors that come of what one layer has, and not of the names: the section is no
    table or cannot be looked up, an alias has no leaf, a variable cannot be read. -/
inductive SectionError.OfLayer : SectionError → Prop where
  | notTable (name : String) : OfLayer (.notTable name)
  | lookup (name error : String) : OfLayer (.lookup name error)
  | unknownField (aliasVar field name : String) : OfLayer (.unknownField aliasVar field name)
  | notUnicode (var : String) : OfLayer (.notUnicode var)
  | invalidValue (var expected : String) : OfLayer (.invalidValue var expected)

namespace AppConfig

/-! ## One variable -/

/-- What a variable sets a leaf of the kind to: nothing when it is not set. -/
def readVar (deps : Externals L) (env : String → Option OsString) (source : Source) :
    Except SectionError (Option Value) :=
  match env source.1 with
  | none => .ok none
  | some raw =>
    match raw.toStr with
    | none => .error (.notUnicode source.1)
    | some raw =>
      match parseEnvValue deps raw source.2.kind with
      | .error expected => .error (.invalidValue source.1 expected)
      | .ok value => .ok (some value)

/-- Reading a variable fails, when it does, over the value and not the name. -/
theorem readVar_error {deps : Externals L} {env : String → Option OsString} {source : Source}
    {error : SectionError} (h : readVar deps env source = .error error) : error.OfLayer := by
  unfold readVar at h
  split at h
  · cases h
  · split at h
    · cases h
      exact .notUnicode _
    · split at h
      · cases h
        exact .invalidValue _ _
      · cases h

/-- The two ways a claim can end. -/
theorem claim_cases (app : AppConfig) (var name : String) (path : List String) :
    (∃ app', app.claim var name path = (.ok (), app') ∧ app'.env = app.env ∧
      app'.tree = app.tree ∧
      app'.claimed = Function.update app.claimed var (some (claimTarget name path)) ∧
      (app.claimed var = none ∨ app.claimed var = some (claimTarget name path))) ∨
    (∃ existing, app.claimed var = some existing ∧ existing ≠ claimTarget name path ∧
      app.claim var name path =
        (.error (.ambiguous var existing (claimTarget name path)), app)) := by
  unfold claim
  cases h : app.claimed var with
  | none => exact Or.inl ⟨_, rfl, rfl, rfl, rfl, Or.inl rfl⟩
  | some existing =>
    by_cases heq : existing = claimTarget name path
    · refine Or.inl ⟨app, by simp [heq], rfl, rfl, ?_, Or.inr (by rw [heq])⟩
      rw [← heq, ← h, Function.update_eq_self]
    · exact Or.inr ⟨existing, rfl, heq, by simp [heq]⟩

/-- After a granted claim the variable is read and written. -/
theorem applyEnv_of_claim {deps : Externals L} {app app' : AppConfig} {tree : Value}
    {var name : String} {leaf : Leaf} (htree : KeyedTree.IsTable tree)
    (hclaim : app.claim var name leaf.path = (.ok (), app')) :
    app.applyEnv deps tree var name leaf =
      ((readVar deps app'.env (var, leaf)).map fun value? =>
        (match value? with
        | none => (tree, false)
        | some value => (KeyedTree.writePath tree leaf.path value, true)), app') := by
  unfold applyEnv readVar
  rw [hclaim]
  simp only [insertAtPath_eq htree]
  cases app'.env var with
  | none => rfl
  | some raw =>
    simp only
    cases raw.toStr with
    | none => rfl
    | some raw =>
      simp only
      cases parseEnvValue deps raw leaf.kind <;> rfl

/-! ## One loop over the sources -/

/-- The loop body of `section` over a list of sources. -/
def applyAll (deps : Externals L) (name : String) :
    List Source → Value → List String → AppConfig → Pass
  | [], tree, applied, app => (.ok (tree, applied), app)
  | (var, leaf) :: sources, tree, applied, app =>
    match app.applyEnv deps tree var name leaf with
    | (.error error, app) => (.error error, app)
    | (.ok (tree, isSet), app) =>
      applyAll deps name sources tree (if isSet then applied ++ [var] else applied) app

/-- The sources of the derived variables. -/
def derivedSources (tables : UnicodeTables) (name : String) (leaves : List Leaf) : List Source :=
  leaves.map fun leaf => (envVarName tables name leaf.path, leaf)

theorem applyDerived_eq (deps : Externals L) (name : String) (leaves : List Leaf) (tree : Value)
    (applied : List String) (app : AppConfig) :
    applyDerived deps name leaves tree applied app =
      applyAll deps name (derivedSources deps.tables name leaves) tree applied app := by
  induction leaves generalizing tree applied app with
  | nil => rfl
  | cons leaf leaves ih =>
    simp only [applyDerived, derivedSources, List.map_cons, applyAll]
    generalize app.applyEnv deps tree (envVarName deps.tables name leaf.path) name leaf = outcome
    obtain ⟨result, app'⟩ := outcome
    cases result with
    | error error => rfl
    | ok pass => exact ih _ _ _

/-- The leaf an alias targets. -/
def aliasLeaf (leaves : List Leaf) (field : String) : Option Leaf :=
  leaves.find? fun leaf => ".".intercalate leaf.path == field

/-- The sources of the aliases up to the first one without a leaf, and the error
    that one ends in. -/
def aliasSources (name : String) (leaves : List Leaf) :
    List (String × String) → List Source × Option SectionError
  | [] => ([], none)
  | (field, var) :: aliases =>
    match aliasLeaf leaves field with
    | none => ([], some (.unknownField var field name))
    | some leaf =>
      ((var, leaf) :: (aliasSources name leaves aliases).1, (aliasSources name leaves aliases).2)

theorem applyAliases_eq (deps : Externals L) (name : String) (leaves : List Leaf)
    (aliases : List (String × String)) (tree : Value) (applied : List String) (app : AppConfig) :
    applyAliases deps name leaves aliases tree applied app =
      match applyAll deps name (aliasSources name leaves aliases).1 tree applied app with
      | (.error error, app) => (.error error, app)
      | (.ok pass, app) =>
        match (aliasSources name leaves aliases).2 with
        | some error => (.error error, app)
        | none => (.ok pass, app) := by
  induction aliases generalizing tree applied app with
  | nil => rfl
  | cons entry aliases ih =>
    obtain ⟨field, var⟩ := entry
    cases hleaf : aliasLeaf leaves field with
    | none =>
      have hfind : (leaves.find? fun leaf => ".".intercalate leaf.path == field) = none := hleaf
      simp only [applyAliases, hfind, aliasSources, hleaf, applyAll]
    | some leaf =>
      have hfind : (leaves.find? fun leaf => ".".intercalate leaf.path == field) = some leaf :=
        hleaf
      simp only [applyAliases, hfind, aliasSources, hleaf, applyAll]
      generalize app.applyEnv deps tree var name leaf = outcome
      obtain ⟨result, app'⟩ := outcome
      cases result with
      | error error => rfl
      | ok pass => exact ih _ _ _

/-! ## The value of a pass -/

/-- A pass with the claims left out. -/
def passValue (deps : Externals L) (env : String → Option OsString) :
    List Source → Value → List String → Except SectionError (Value × List String)
  | [], tree, applied => .ok (tree, applied)
  | source :: sources, tree, applied =>
    match readVar deps env source with
    | .error error => .error error
    | .ok none => passValue deps env sources tree applied
    | .ok (some value) =>
      passValue deps env sources (KeyedTree.writePath tree source.2.path value)
        (applied ++ [source.1])

/-- The writes of the sources that are set. -/
def writes (deps : Externals L) (env : String → Option OsString) (sources : List Source) :
    List (List String × Value) :=
  sources.filterMap fun source =>
    match readVar deps env source with
    | .ok (some value) => some (source.2.path, value)
    | _ => none

theorem passValue_ok {deps : Externals L} {env : String → Option OsString}
    {sources : List Source} {tree tree' : Value} {applied applied' : List String}
    (h : passValue deps env sources tree applied = .ok (tree', applied')) :
    tree' = KeyedTree.writeAll tree (writes deps env sources) ∧
      ∀ source ∈ sources, ∃ value?, readVar deps env source = .ok value? := by
  induction sources generalizing tree applied with
  | nil =>
    simp only [passValue, Except.ok.injEq, Prod.mk.injEq] at h
    exact ⟨h.1.symm, by simp⟩
  | cons source sources ih =>
    unfold passValue at h
    cases hread : readVar deps env source with
    | error error => rw [hread] at h; cases h
    | ok value? =>
      rw [hread] at h
      cases value? with
      | none | some =>
        obtain ⟨htree, hall⟩ := ih h
        refine ⟨by simpa [writes, hread] using htree, ?_⟩
        intro s hs
        rcases List.mem_cons.mp hs with rfl | hs
        · exact ⟨_, hread⟩
        · exact hall s hs

theorem passValue_error {deps : Externals L} {env : String → Option OsString}
    {sources : List Source} {tree : Value} {applied : List String} {error : SectionError}
    (h : passValue deps env sources tree applied = .error error) :
    ∃ source ∈ sources, readVar deps env source = .error error := by
  induction sources generalizing tree applied with
  | nil => cases h
  | cons source sources ih =>
    unfold passValue at h
    cases hread : readVar deps env source with
    | error error' =>
      rw [hread] at h
      cases h
      exact ⟨source, by simp, hread⟩
    | ok value? =>
      rw [hread] at h
      cases value? with
      | none | some =>
        obtain ⟨s, hs, hs'⟩ := ih h
        exact ⟨s, by simp [hs], hs'⟩

/-! ## The claims of a pass -/

/-- The claim a source makes in a section. -/
def claimOf (name : String) (source : Source) : String × String :=
  (source.1, claimTarget name source.2.path)

/-- Two different targets share a name among the claims made already and the
    ones about to be made, of which one is involved. -/
def Clash (claimed : String → Option String) (claims : List (String × String)) : Prop :=
  ∃ var target existing, (var, target) ∈ claims ∧ existing ≠ target ∧
    (claimed var = some existing ∨ (var, existing) ∈ claims)

/-- What a pass does, whichever way it ends. -/
structure PassSpec (deps : Externals L) (name : String) (sources : List Source) (tree : Value)
    (applied : List String) (app : AppConfig) (out : Pass) : Prop where
  env_eq : out.2.env = app.env
  tree_eq : out.2.tree = app.tree
  /-- No claim is lost. -/
  mono : ∀ var target, app.claimed var = some target → out.2.claimed var = some target
  /-- Every new claim is that of a source. -/
  sub : ∀ var target, out.2.claimed var = some target →
    app.claimed var = some target ∨ (var, target) ∈ sources.map (claimOf name)
  /-- A pass that succeeds has made all its claims. -/
  all : ∀ result, out.1 = .ok result →
    ∀ claim ∈ sources.map (claimOf name), out.2.claimed claim.1 = some claim.2
  /-- Apart from the claims the result is that of the values. -/
  value : out.1 = passValue deps app.env sources tree applied ∨
    (∃ var existing target, out.1 = .error (.ambiguous var existing target)) ∧
      Clash app.claimed (sources.map (claimOf name))

/-- A claim that is granted loses none of those made before. -/
theorem claimed_of_granted {claimed : String → Option String} {var target : String}
    (hfree : claimed var = none ∨ claimed var = some target) {var' target' : String}
    (h : claimed var' = some target') :
    Function.update claimed var (some target) var' = some target' := by
  by_cases hvar : var' = var
  · subst hvar
    rcases hfree with hnone | hsome
    · rw [hnone] at h
      cases h
    · rw [Function.update_self, ← hsome, h]
  · rw [Function.update_of_ne hvar, h]

theorem claimed_or_of_granted {claimed : String → Option String} {var target var' target' : String}
    (h : Function.update claimed var (some target) var' = some target') :
    claimed var' = some target' ∨ (var', target') = (var, target) := by
  by_cases hvar : var' = var
  · subst hvar
    rw [Function.update_self, Option.some.injEq] at h
    exact Or.inr (by rw [h])
  · rw [Function.update_of_ne hvar] at h
    exact Or.inl h

theorem Clash.of_update {claimed : String → Option String} {claims : List (String × String)}
    {var target : String} (h : Clash (Function.update claimed var (some target)) claims) :
    Clash claimed ((var, target) :: claims) := by
  obtain ⟨var', target', existing, hmem, hne, hex⟩ := h
  refine ⟨var', target', existing, by simp [hmem], hne, ?_⟩
  rcases hex with hex | hex
  · exact (claimed_or_of_granted hex).imp_right fun heq => by simp [heq]
  · exact Or.inr (by simp [hex])

/-- The rest of the loop starts from the tree that a variable leaves. -/
theorem applyAll_cons_of_read {deps : Externals L} {name var : String} {leaf : Leaf}
    (sources : List Source) {tree : Value} (htree : KeyedTree.IsTable tree)
    (hleaf : leaf.path ≠ []) (applied : List String) {app app' : AppConfig}
    (hclaim : app.claim var name leaf.path = (.ok (), app')) (henv : app'.env = app.env)
    {value? : Option Value} (hread : readVar deps app'.env (var, leaf) = .ok value?) :
    ∃ tree' applied', KeyedTree.IsTable tree' ∧
      applyAll deps name ((var, leaf) :: sources) tree applied app =
        applyAll deps name sources tree' applied' app' ∧
      passValue deps app.env ((var, leaf) :: sources) tree applied =
        passValue deps app.env sources tree' applied' := by
  have happly : app.applyEnv deps tree var name leaf = _ := applyEnv_of_claim htree hclaim
  cases value? with
  | none =>
    refine ⟨tree, applied, htree, ?_, ?_⟩
    · simp only [applyAll, happly, hread]
      rfl
    · rw [passValue, ← henv, hread]
  | some value =>
    refine ⟨KeyedTree.writePath tree leaf.path value, applied ++ [var],
      KeyedTree.isTable_writePath hleaf, ?_, ?_⟩
    · simp only [applyAll, happly, hread]
      rfl
    · rw [passValue, ← henv, hread]

theorem applyAll_spec (deps : Externals L) (name : String) (sources : List Source)
    (hpaths : ∀ source ∈ sources, source.2.path ≠ []) (tree : Value)
    (htree : KeyedTree.IsTable tree) (applied : List String) (app : AppConfig) :
    PassSpec deps name sources tree applied app (applyAll deps name sources tree applied app) := by
  induction sources generalizing tree applied app with
  | nil =>
    exact {
      env_eq := rfl
      tree_eq := rfl
      mono := fun _ _ h => h
      sub := fun _ _ h => Or.inl h
      all := fun _ _ claim hclaim => absurd hclaim (by simp)
      value := Or.inl rfl }
  | cons source sources ih =>
    obtain ⟨var, leaf⟩ := source
    have hleaf : leaf.path ≠ [] := hpaths (var, leaf) (by simp)
    have hrest : ∀ source ∈ sources, source.2.path ≠ [] := fun s hs => hpaths s (by simp [hs])
    rcases claim_cases app var name leaf.path with
      ⟨app', hclaim, henv, htree', hclaimed, hfree⟩ | ⟨existing, hexisting, hne, hclaim⟩
    · -- the claim is granted: what the variable does decides how the loop goes on
      have hmono : ∀ var' target', app.claimed var' = some target' →
          app'.claimed var' = some target' := by
        intro var' target' h
        rw [hclaimed]
        exact claimed_of_granted hfree h
      have hsub : ∀ var' target', app'.claimed var' = some target' →
          app.claimed var' = some target' ∨
            (var', target') ∈ ((var, leaf) :: sources).map (claimOf name) := by
        intro var' target' h
        rw [hclaimed] at h
        exact (claimed_or_of_granted h).imp_right fun heq => by simp [heq, claimOf]
      cases hread : readVar deps app'.env (var, leaf) with
      | error error =>
        have hout : applyAll deps name ((var, leaf) :: sources) tree applied app =
            (.error error, app') := by
          simp only [applyAll, applyEnv_of_claim htree hclaim, hread]
          rfl
        rw [hout]
        exact {
          env_eq := henv
          tree_eq := htree'
          mono := hmono
          sub := hsub
          all := fun _ h => nomatch h
          value := Or.inl (by rw [← henv, passValue, hread]) }
      | ok value? =>
        obtain ⟨tree'', applied', htable, hout, hvalue⟩ :=
          applyAll_cons_of_read sources htree hleaf applied hclaim henv hread
        have spec := ih hrest tree'' htable applied' app'
        rw [hout]
        exact {
          env_eq := spec.env_eq.trans henv
          tree_eq := spec.tree_eq.trans htree'
          mono := fun var' target' h => spec.mono var' target' (hmono var' target' h)
          sub := by
            intro var' target' h
            rcases spec.sub var' target' h with h | h
            · exact hsub var' target' h
            · exact Or.inr (by simp only [List.map_cons, List.mem_cons]; exact Or.inr h)
          all := by
            intro result hok claim hclaim'
            rw [List.map_cons, List.mem_cons] at hclaim'
            rcases hclaim' with rfl | hclaim'
            · apply spec.mono
              rw [hclaimed]
              exact Function.update_self ..
            · exact spec.all result hok claim hclaim'
          value := by
            rcases spec.value with h | ⟨hamb, hclash⟩
            · exact Or.inl (by rw [h, henv, hvalue])
            · rw [hclaimed] at hclash
              exact Or.inr ⟨hamb, hclash.of_update⟩ }
    · -- the name is taken by another target
      have hout : applyAll deps name ((var, leaf) :: sources) tree applied app =
          (.error (.ambiguous var existing (claimTarget name leaf.path)), app) := by
        simp only [applyAll, applyEnv, hclaim]
      rw [hout]
      exact {
        env_eq := rfl
        tree_eq := rfl
        mono := fun _ _ h => h
        sub := fun _ _ h => Or.inl h
        all := fun _ h => nomatch h
        value := Or.inr ⟨⟨_, _, _, rfl⟩, var, claimTarget name leaf.path, existing,
          by simp [claimOf], hne, Or.inl hexisting⟩ }

/-! ## The whole resolution -/

/-- The sources of a section in the order they are applied, the aliases first. -/
def sources (tables : UnicodeTables) (name : String) (leaves : List Leaf)
    (aliases : List (String × String)) : List Source :=
  (aliasSources name leaves aliases).1 ++ derivedSources tables name leaves

/-- The claims of a section. -/
def claims (tables : UnicodeTables) (name : String) (leaves : List Leaf)
    (aliases : List (String × String)) : List (String × String) :=
  (sources tables name leaves aliases).map (claimOf name)

/-- `resolve` with the claims left out. -/
def resolveValue (deps : Externals L) (app : AppConfig) (name : String) (shape : Shape L)
    (aliases : List (String × String)) : Except SectionError (Value × List String) :=
  match app.sectionTree name with
  | .error error => .error error
  | .ok tree =>
    match passValue deps app.env (aliasSources name shape.leaves aliases).1 tree [] with
    | .error error => .error error
    | .ok (tree, applied) =>
      match (aliasSources name shape.leaves aliases).2 with
      | some error => .error error
      | none =>
        passValue deps app.env (derivedSources deps.tables name shape.leaves) tree applied

/-- What the resolution of a section does, whichever way it ends. -/
structure ResolveSpec (deps : Externals L) (app : AppConfig) (name : String) (shape : Shape L)
    (aliases : List (String × String)) (out : Pass) : Prop where
  env_eq : out.2.env = app.env
  tree_eq : out.2.tree = app.tree
  mono : ∀ var target, app.claimed var = some target → out.2.claimed var = some target
  sub : ∀ var target, out.2.claimed var = some target →
    app.claimed var = some target ∨ (var, target) ∈ claims deps.tables name shape.leaves aliases
  all : ∀ result, out.1 = .ok result →
    ∀ claim ∈ claims deps.tables name shape.leaves aliases, out.2.claimed claim.1 = some claim.2
  value : out.1 = resolveValue deps app name shape aliases ∨
    (∃ var existing target, out.1 = .error (.ambiguous var existing target)) ∧
      Clash app.claimed (claims deps.tables name shape.leaves aliases)

theorem Clash.mono {claimed claimed' : String → Option String}
    {claims claims' : List (String × String)} (h : Clash claimed claims)
    (hclaimed : ∀ var target, claimed var = some target →
      claimed' var = some target ∨ (var, target) ∈ claims')
    (hclaims : ∀ claim ∈ claims, claim ∈ claims') : Clash claimed' claims' := by
  obtain ⟨var, target, existing, hmem, hne, hex⟩ := h
  refine ⟨var, target, existing, hclaims _ hmem, hne, ?_⟩
  rcases hex with hex | hex
  · exact hclaimed var existing hex
  · exact Or.inr (hclaims _ hex)

theorem isTable_sectionTree {app : AppConfig} {name : String} {tree : Value}
    (h : app.sectionTree name = .ok tree) : KeyedTree.IsTable tree := by
  unfold sectionTree at h
  split at h
  · rename_i value _
    split at h
    · rename_i htable
      cases h
      have := ConfigValue.isObject_toFacetValue value
      rw [htable] at this
      exact this
    · cases h
  · cases h
    exact Value.isTable_ofObject _
  · cases h

theorem sectionTree_error {app : AppConfig} {name : String} {error : SectionError}
    (h : app.sectionTree name = .error error) : error.OfLayer := by
  unfold sectionTree at h
  split at h
  · split at h
    · cases h
    · cases h
      exact .notTable name
  · cases h
  · cases h
    exact .lookup name _

theorem aliasLeaf_mem {leaves : List Leaf} {field : String} {leaf : Leaf}
    (h : aliasLeaf leaves field = some leaf) : leaf ∈ leaves := List.mem_of_find?_eq_some h

theorem aliasLeaf_path {leaves : List Leaf} {field : String} {leaf : Leaf}
    (h : aliasLeaf leaves field = some leaf) : ".".intercalate leaf.path = field := by
  simpa using List.find?_some h

/-- The source of an alias sets a leaf, that of the alias's dotted path. -/
theorem mem_of_aliasSources {name : String} {leaves : List Leaf}
    {aliases : List (String × String)} {source : Source}
    (h : source ∈ (aliasSources name leaves aliases).1) :
    source.2 ∈ leaves ∧ (".".intercalate source.2.path, source.1) ∈ aliases := by
  induction aliases with
  | nil => simp [aliasSources] at h
  | cons entry aliases ih =>
    obtain ⟨field, var⟩ := entry
    unfold aliasSources at h
    cases hleaf : aliasLeaf leaves field with
    | none => simp [hleaf] at h
    | some leaf =>
      simp only [hleaf, List.mem_cons] at h
      rcases h with rfl | h
      · refine ⟨aliasLeaf_mem hleaf, ?_⟩
        rw [aliasLeaf_path hleaf]
        exact List.mem_cons_self
      · obtain ⟨hmem, halias⟩ := ih h
        exact ⟨hmem, List.mem_cons_of_mem _ halias⟩

theorem aliasSources_error {name : String} {leaves : List Leaf}
    {aliases : List (String × String)} {error : SectionError}
    (h : (aliasSources name leaves aliases).2 = some error) : error.OfLayer := by
  induction aliases with
  | nil => cases h
  | cons entry aliases ih =>
    obtain ⟨field, aliasVar⟩ := entry
    unfold aliasSources at h
    cases hleaf : aliasLeaf leaves field with
    | none =>
      rw [hleaf] at h
      cases h
      exact .unknownField _ _ _
    | some leaf =>
      rw [hleaf] at h
      exact ih h

/-- Every source sets a leaf of the section. -/
theorem mem_leaves_of_sources {tables : UnicodeTables} {name : String} {leaves : List Leaf}
    {aliases : List (String × String)} {source : Source}
    (h : source ∈ sources tables name leaves aliases) : source.2 ∈ leaves := by
  rcases List.mem_append.mp h with h | h
  · exact (mem_of_aliasSources h).1
  · obtain ⟨leaf, hleaf, rfl⟩ := List.mem_map.mp h
    exact hleaf

theorem isTable_writeAll_of_paths {deps : Externals L} {env : String → Option OsString}
    {sources : List Source} (hpaths : ∀ source ∈ sources, source.2.path ≠ []) {tree : Value}
    (htree : KeyedTree.IsTable tree) :
    KeyedTree.IsTable (KeyedTree.writeAll tree (writes deps env sources)) := by
  apply KeyedTree.isTable_writeAll htree
  intro w hw
  obtain ⟨source, hsource, hw⟩ := List.mem_filterMap.mp hw
  split at hw
  · cases hw
    exact hpaths source hsource
  · cases hw

/-- On a table the resolution is the pass over the aliases and the one over the
    derived variables. -/
theorem resolve_eq {deps : Externals L} {app : AppConfig} {name : String} {shape : Shape L}
    {aliases : List (String × String)} {tree : Value} (htree : app.sectionTree name = .ok tree) :
    app.resolve deps name shape aliases =
      match applyAll deps name (aliasSources name shape.leaves aliases).1 tree [] app with
      | (.error error, app) => (.error error, app)
      | (.ok pass, app) =>
        match (aliasSources name shape.leaves aliases).2 with
        | some error => (.error error, app)
        | none => applyAll deps name (derivedSources deps.tables name shape.leaves)
            pass.1 pass.2 app := by
  simp only [resolve, htree, applyAliases_eq, applyDerived_eq]
  generalize applyAll deps name (aliasSources name shape.leaves aliases).1 tree [] app = out
  obtain ⟨result, app'⟩ := out
  cases result with
  | error error => rfl
  | ok pass =>
    cases (aliasSources name shape.leaves aliases).2 with
    | some error => rfl
    | none => rfl

/-- The claims are those of the aliases, then those of the derived variables. -/
theorem mem_claims_iff {tables : UnicodeTables} {name : String} {leaves : List Leaf}
    {aliases : List (String × String)} {claim : String × String} :
    claim ∈ claims tables name leaves aliases ↔
      claim ∈ (aliasSources name leaves aliases).1.map (claimOf name) ∨
        claim ∈ (derivedSources tables name leaves).map (claimOf name) := by
  rw [claims, sources, List.map_append, List.mem_append]

/-- A resolution that stops at the aliases has made claims of theirs only. -/
theorem PassSpec.resolve_error {deps : Externals L} {app : AppConfig} {name : String}
    {shape : Shape L} {aliases : List (String × String)} {tree : Value} {applied : List String}
    {out : Pass}
    (h : PassSpec deps name (aliasSources name shape.leaves aliases).1 tree applied app out)
    {error : SectionError}
    (hvalue : .error error = resolveValue deps app name shape aliases ∨
      (∃ var existing target, error = .ambiguous var existing target) ∧
        Clash app.claimed ((aliasSources name shape.leaves aliases).1.map (claimOf name))) :
    ResolveSpec deps app name shape aliases (.error error, out.2) where
  env_eq := h.env_eq
  tree_eq := h.tree_eq
  mono := h.mono
  sub var target hclaimed :=
    (h.sub var target hclaimed).imp_right fun hmem => mem_claims_iff.mpr (Or.inl hmem)
  all _ hok := nomatch hok
  value := by
    rcases hvalue with hvalue | ⟨⟨var, existing, target, rfl⟩, hclash⟩
    · exact Or.inl hvalue
    · refine Or.inr ⟨⟨var, existing, target, rfl⟩, hclash.mono (fun _ _ h => Or.inl h) ?_⟩
      exact fun _ hmem => mem_claims_iff.mpr (Or.inl hmem)

theorem resolve_spec (deps : Externals L) (app : AppConfig) (name : String) {shape : Shape L}
    (hshape : shape.namedFields.isSome) (aliases : List (String × String)) :
    ResolveSpec deps app name shape aliases (app.resolve deps name shape aliases) := by
  obtain ⟨fields, hfields⟩ := Option.isSome_iff_exists.mp hshape
  have hleaves : ∀ leaf ∈ shape.leaves, leaf.path ≠ [] :=
    fun leaf h => Shape.path_ne_nil hfields h
  cases htree : app.sectionTree name with
  | error error =>
    have hout : app.resolve deps name shape aliases = (.error error, app) := by
      simp only [resolve, htree]
    rw [hout]
    exact {
      env_eq := rfl
      tree_eq := rfl
      mono := fun _ _ h => h
      sub := fun _ _ h => Or.inl h
      all := fun _ h => nomatch h
      value := Or.inl (by simp only [resolveValue, htree]) }
  | ok tree =>
    have hpaths₁ : ∀ source ∈ (aliasSources name shape.leaves aliases).1, source.2.path ≠ [] :=
      fun source h => hleaves _ (mem_of_aliasSources h).1
    have hpaths₂ : ∀ source ∈ derivedSources deps.tables name shape.leaves,
        source.2.path ≠ [] := by
      intro source h
      obtain ⟨leaf, hleaf, rfl⟩ := List.mem_map.mp h
      exact hleaves leaf hleaf
    have htable := isTable_sectionTree htree
    have spec₁ := applyAll_spec deps name _ hpaths₁ tree htable [] app
    rw [resolve_eq htree]
    generalize applyAll deps name (aliasSources name shape.leaves aliases).1 tree [] app = out₁
      at spec₁
    obtain ⟨result, app₁⟩ := out₁
    cases result with
    | error error =>
      apply spec₁.resolve_error
      rcases spec₁.value with h | ⟨⟨var, existing, target, h⟩, hclash⟩
      · simp only at h
        exact Or.inl (by simp only [resolveValue, htree, ← h])
      · exact Or.inr ⟨⟨var, existing, target, Except.error.inj h⟩, hclash⟩
    | ok pass =>
      obtain ⟨tree₁, applied₁⟩ := pass
      have hvalue₁ : passValue deps app.env (aliasSources name shape.leaves aliases).1 tree [] =
          .ok (tree₁, applied₁) := by
        rcases spec₁.value with h | ⟨⟨_, _, _, h⟩, _⟩
        · exact h.symm
        · cases h
      cases hunknown : (aliasSources name shape.leaves aliases).2 with
      | some error =>
        exact spec₁.resolve_error (Or.inl (by simp only [resolveValue, htree, hvalue₁, hunknown]))
      | none =>
        have htable₁ : KeyedTree.IsTable tree₁ := by
          rw [(passValue_ok hvalue₁).1]
          exact isTable_writeAll_of_paths hpaths₁ htable
        have spec₂ := applyAll_spec deps name _ hpaths₂ tree₁ htable₁ applied₁ app₁
        have henv : app₁.env = app.env := spec₁.env_eq
        exact {
          env_eq := spec₂.env_eq.trans spec₁.env_eq
          tree_eq := spec₂.tree_eq.trans spec₁.tree_eq
          mono := fun var target h => spec₂.mono var target (spec₁.mono var target h)
          sub := by
            intro var target h
            rcases spec₂.sub var target h with h | h
            · exact (spec₁.sub var target h).imp_right fun h => mem_claims_iff.mpr (Or.inl h)
            · exact Or.inr (mem_claims_iff.mpr (Or.inr h))
          all := by
            intro result hok claim hclaim
            rcases mem_claims_iff.mp hclaim with hclaim | hclaim
            · exact spec₂.mono _ _ (spec₁.all _ rfl claim hclaim)
            · exact spec₂.all result hok claim hclaim
          value := by
            rcases spec₂.value with h | ⟨hamb, hclash⟩
            · refine Or.inl ?_
              rw [h, henv]
              simp only [resolveValue, htree, hvalue₁, hunknown]
            · refine Or.inr ⟨hamb, hclash.mono ?_ fun _ h => mem_claims_iff.mpr (Or.inr h)⟩
              intro var target h
              exact (spec₁.sub var target h).imp_right fun h => mem_claims_iff.mpr (Or.inl h) }

theorem passValue_append (deps : Externals L) (env : String → Option OsString)
    (sources sources' : List Source) (tree : Value) (applied : List String) :
    passValue deps env (sources ++ sources') tree applied =
      match passValue deps env sources tree applied with
      | .error error => .error error
      | .ok (tree, applied) => passValue deps env sources' tree applied := by
  induction sources generalizing tree applied with
  | nil => rfl
  | cons source sources ih =>
    rw [List.cons_append, passValue, passValue]
    cases readVar deps env source with
    | error error => rfl
    | ok value? =>
      cases value? with
      | none => exact ih tree applied
      | some value => exact ih _ _

/-- With every alias known, the resolution is one pass over all the sources. -/
theorem resolveValue_eq {deps : Externals L} {app : AppConfig} {name : String} {shape : Shape L}
    {aliases : List (String × String)} {tree : Value} (htree : app.sectionTree name = .ok tree)
    (hknown : (aliasSources name shape.leaves aliases).2 = none) :
    resolveValue deps app name shape aliases =
      passValue deps app.env (sources deps.tables name shape.leaves aliases) tree [] := by
  rw [sources, passValue_append]
  simp only [resolveValue, htree, hknown]

/-- What a resolution that succeeds has written. -/
theorem resolveValue_ok {deps : Externals L} {app : AppConfig} {name : String} {shape : Shape L}
    {aliases : List (String × String)} {tree' : Value} {applied : List String}
    (h : resolveValue deps app name shape aliases = .ok (tree', applied)) :
    ∃ tree, app.sectionTree name = .ok tree ∧ (aliasSources name shape.leaves aliases).2 = none ∧
      tree' = KeyedTree.writeAll tree
        (writes deps app.env (sources deps.tables name shape.leaves aliases)) ∧
      ∀ source ∈ sources deps.tables name shape.leaves aliases,
        ∃ value?, readVar deps app.env source = .ok value? := by
  cases htree : app.sectionTree name with
  | error error =>
    simp only [resolveValue, htree] at h
    cases h
  | ok tree =>
    cases hknown : (aliasSources name shape.leaves aliases).2 with
    | some error =>
      simp only [resolveValue, htree, hknown] at h
      split at h <;> cases h
    | none =>
      rw [resolveValue_eq htree hknown] at h
      obtain ⟨hwrites, hreads⟩ := passValue_ok h
      exact ⟨tree, rfl, rfl, hwrites, hreads⟩

/-- With the claims left out a resolution fails over a layer. -/
theorem resolveValue_error {deps : Externals L} {app : AppConfig} {name : String}
    {shape : Shape L} {aliases : List (String × String)} {error : SectionError}
    (h : resolveValue deps app name shape aliases = .error error) : error.OfLayer := by
  have hpass : ∀ {sources : List Source} {tree : Value} {applied : List String},
      passValue deps app.env sources tree applied = .error error → error.OfLayer := by
    intro sources tree applied hpass
    obtain ⟨source, _, hsource⟩ := passValue_error hpass
    exact readVar_error hsource
  unfold resolveValue at h
  cases htree : app.sectionTree name with
  | error error' =>
    rw [htree] at h
    cases h
    exact sectionTree_error htree
  | ok tree =>
    rw [htree] at h
    simp only at h
    cases halias : passValue deps app.env (aliasSources name shape.leaves aliases).1 tree [] with
    | error error' =>
      rw [halias] at h
      cases h
      exact hpass halias
    | ok pass =>
      rw [halias] at h
      simp only at h
      cases hknown : (aliasSources name shape.leaves aliases).2 with
      | none =>
        rw [hknown] at h
        exact hpass h
      | some error' =>
        rw [hknown] at h
        cases h
        exact aliasSources_error hknown

/-- A resolution that succeeds has the value that the claims have no part in. -/
theorem resolveValue_of_resolve_ok {deps : Externals L} {app : AppConfig} {name : String}
    {shape : Shape L} (hshape : shape.namedFields.isSome) {aliases : List (String × String)}
    {result : Value × List String} (h : (app.resolve deps name shape aliases).1 = .ok result) :
    resolveValue deps app name shape aliases = .ok result := by
  rcases (resolve_spec deps app name hshape aliases).value with hvalue | ⟨⟨_, _, _, hvalue⟩, _⟩
  · rw [← hvalue, h]
  · rw [hvalue] at h
    cases h

/-- A resolution succeeds exactly when the section is a table, every alias targets
    a leaf, every variable that is set can be read, and no two targets share a
    name. -/
theorem resolve_ok_iff (deps : Externals L) (app : AppConfig) (name : String) {shape : Shape L}
    (hshape : shape.namedFields.isSome) (aliases : List (String × String)) :
    (∃ result, (app.resolve deps name shape aliases).1 = .ok result) ↔
      (∃ tree, app.sectionTree name = .ok tree) ∧
      (aliasSources name shape.leaves aliases).2 = none ∧
      (∀ source ∈ sources deps.tables name shape.leaves aliases,
        ∃ value?, readVar deps app.env source = .ok value?) ∧
      ¬ Clash app.claimed (claims deps.tables name shape.leaves aliases) := by
  have spec := resolve_spec deps app name hshape aliases
  constructor
  · rintro ⟨result, hok⟩
    obtain ⟨tree, htree, hknown, _, hreads⟩ :=
      resolveValue_ok (resolveValue_of_resolve_ok hshape hok)
    refine ⟨⟨tree, htree⟩, hknown, hreads, ?_⟩
    rintro ⟨var, target, existing, hmem, hne, hex⟩
    have htarget := spec.all result hok _ hmem
    have hexisting : (app.resolve deps name shape aliases).2.claimed var = some existing := by
      rcases hex with hex | hex
      · exact spec.mono _ _ hex
      · exact spec.all result hok _ hex
    rw [hexisting, Option.some.injEq] at htarget
    exact hne htarget
  · rintro ⟨⟨tree, htree⟩, hknown, hreads, hclash⟩
    rcases spec.value with h | ⟨_, h⟩
    · rw [h, resolveValue_eq htree hknown]
      cases hpass : passValue deps app.env (sources deps.tables name shape.leaves aliases) tree []
        with
      | ok result => exact ⟨result, rfl⟩
      | error error =>
        obtain ⟨source, hsource, herror⟩ := passValue_error hpass
        obtain ⟨value?, hvalue⟩ := hreads source hsource
        rw [hvalue] at herror
        cases herror
    · exact absurd h hclash

end AppConfig

end QuizArena.Config
