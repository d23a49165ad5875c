import QuizArena.Config.Reading

/-!
# Loading

`AppConfig::load` reads the file and inline layers and takes the snapshot of the
environment that every section resolves its variables against. The snapshot leaves out
the two variables the loader reads itself. Any other variable that is the derived one of
a field reaches that field, in whatever order the sections are extracted; of the loader's
two only the one of the configuration's path is ever derived, by a field `path` at the top
of a section `config`.
-/

namespace QuizArena.Config

open Lib

variable {L : Type}

/-- `CONFIG_PATH_VAR`. -/
def configPathVar : String := "QUIZ_ARENA_CONFIG_PATH"

/-- `INLINE_CONFIG_VAR`. -/
def inlineConfigVar : String := "QUIZ_ARENA_CONFIG"

/-- `DEFAULT_CONFIG_PATH`. -/
def defaultConfigPath : String := "config.toml"

/-- A TOML source of `Config::builder`. -/
inductive ConfigSource where
  | file (path : String) (isRequired : Bool)
  | inline (text : String)
  deriving DecidableEq

/-- What `load` uses of the process and of the `config` crate. -/
structure Process where
  /-- The environment variables, which need not be Unicode. -/
  env : OsString → Option OsString
  /-- `Path::try_exists`. -/
  tryExists : String → Except String Bool
  /-- `ConfigBuilder::build`, later sources over earlier ones. -/
  build : List ConfigSource → Except String (String → Except ConfigError ConfigValue)

/-- The errors of `load`. -/
inductive LoadError where
  | notUnicode (name : String)
  | presence (path : String) (error : String)
  | build (path : String) (error : String)
  deriving DecidableEq

/-- The context of an error, and what it is the context of. -/
def LoadError.message : LoadError → String
  | .notUnicode name => "environment variable `" ++ name ++ "` is not valid Unicode"
  | .presence path error =>
    "failed to check for configuration file `" ++ path ++ "`: " ++ error
  | .build path error => "failed to load configuration from `" ++ path ++ "`: " ++ error

/-- `unicode_var`. -/
def unicodeVar (process : Process) (name : String) : Except LoadError (Option String) :=
  match process.env (.unicode name) with
  | none => .ok none
  | some value =>
    match value.toStr with
    | some text => .ok (some text)
    | none => .error (.notUnicode name)

/-- The snapshot of the environment that `load` takes. A name that is not Unicode is
    dropped, and so are the loader's own. -/
def snapshot (process : Process) (name : String) : Option OsString :=
  if name ≠ configPathVar ∧ name ≠ inlineConfigVar then process.env (.unicode name) else none

/-- `AppConfig::load`. -/
def AppConfig.load (process : Process) : Except LoadError AppConfig := do
  let explicitPath ← unicodeVar process configPathVar
  let path := explicitPath.getD defaultConfigPath
  let isPresent ← (process.tryExists path).mapError (.presence path)
  let inline ← unicodeVar process inlineConfigVar
  let tree ← (process.build (.file path (explicitPath.isSome || isPresent) ::
    (inline.map ConfigSource.inline).toList)).mapError (.build path)
  pure (.new tree (snapshot process))

/-- A configuration that loads resolves against the snapshot. -/
theorem AppConfig.env_of_load {process : Process} {app : AppConfig}
    (h : AppConfig.load process = .ok app) : app.env = snapshot process := by
  unfold AppConfig.load at h
  cases hpath : unicodeVar process configPathVar with
  | error error => rw [hpath] at h; cases h
  | ok explicitPath =>
    rw [hpath] at h
    simp only [bind, Except.bind] at h
    split at h
    · cases h
    · split at h
      · cases h
      · split at h
        · cases h
        · cases h
          rfl

/-! ## Derived names -/

theorem toList_envVarName (tables : UnicodeTables) (name : String) (path : List String) :
    (envVarName tables name path).toList = envVarStart.toList ++
      ((tables.toUppercase name).toList ++
        path.flatMap fun segment => '_' :: (tables.toUppercase segment).toList) := by
  have hunderscore : "_".toList = ['_'] := by decide
  have hfold : ∀ acc : String,
      (path.foldl (fun acc segment => acc ++ "_" ++ tables.toUppercase segment) acc).toList =
        acc.toList ++ path.flatMap fun segment => '_' :: (tables.toUppercase segment).toList := by
    induction path with
    | nil =>
      intro acc
      simp
    | cons segment path ih =>
      intro acc
      rw [List.foldl_cons, ih, String.toList_append, String.toList_append, hunderscore,
        List.flatMap_cons]
      simp
  rw [envVarName, hfold, String.toList_append, List.append_assoc]

/-- A field's variable has an underscore after its section. -/
theorem envVarName_ne_inlineConfigVar (tables : UnicodeTables) (name : String)
    {path : List String} (hpath : path ≠ []) :
    envVarName tables name path ≠ inlineConfigVar := by
  intro h
  obtain ⟨segment, path, rfl⟩ := List.exists_cons_of_ne_nil hpath
  have hstart : inlineConfigVar.toList = envVarStart.toList ++ "CONFIG".toList := by decide
  have hchars := congrArg String.toList h
  rw [toList_envVarName, hstart, List.append_cancel_left_eq] at hchars
  have hmem : '_' ∈ "CONFIG".toList := by
    rw [← hchars]
    simp
  exact absurd hmem (by decide)

/-- Only a field `path` at the top of a section `config` has the variable of the
    configuration's path for its own. -/
theorem envVarName_eq_configPathVar_iff (tables : UnicodeTables) (name : String)
    {path : List String} (hpath : path ≠ []) :
    envVarName tables name path = configPathVar ↔
      tables.toUppercase name = "CONFIG" ∧
        ∃ segment, path = [segment] ∧ tables.toUppercase segment = "PATH" := by
  have hstart : configPathVar.toList =
      envVarStart.toList ++ ("CONFIG".toList ++ '_' :: "PATH".toList) := by decide
  rw [← String.toList_inj, toList_envVarName, hstart, List.append_cancel_left_eq]
  constructor
  · intro h
    obtain ⟨segment, path, rfl⟩ := List.exists_cons_of_ne_nil hpath
    rw [List.flatMap_cons, List.cons_append] at h
    have hsection : '_' ∉ "CONFIG".toList := by decide
    have hfield : '_' ∉ "PATH".toList := by decide
    obtain ⟨hname, _, hrest⟩ :=
      (List.append_cons_inj_of_notMem hsection hfield).mp h.symm
    cases path with
    | nil =>
      rw [List.flatMap_nil, List.append_nil] at hrest
      exact ⟨String.toList_inj.mp hname.symm, segment, rfl, String.toList_inj.mp hrest.symm⟩
    | cons segment' path =>
      have hmem : '_' ∈ "PATH".toList := by
        rw [hrest]
        simp
      exact absurd hmem (by decide)
  · rintro ⟨hname, segment, rfl, hsegment⟩
    rw [hname, List.flatMap_singleton, hsegment]

/-! ## What reaches a field -/

/-- The value of the field at a path, an option that is present standing for what is
    inside. -/
inductive Datum.HasField : Datum L → List String → Datum L → Prop where
  | here (datum : Datum L) : HasField datum [] datum
  | present {inner target : Datum L} {path : List String} :
      HasField inner path target → HasField (.present inner) path target
  | record {fields : List (String × Datum L)} {name : String} {value target : Datum L}
      {path : List String} : (name, value) ∈ fields → HasField value path target →
      HasField (.record fields) (name :: path) target

theorem readPath_null_cons (key : String) (path : List String) :
    Value.null.readPath (key :: path) = none := rfl

/-- A field that makes a leaf holds the reading of what the tree has at its path. -/
theorem hasField_of_readAs {readLeaf : Shape L → Value → Option (Datum L)} {filling : Filling}
    (hfilling : filling ≠ .documented) {shape target : Shape L} {path : List String}
    (hfield : shape.FieldAt path target) {kind : LeafKind} (hkind : target.leafKind = some kind)
    {tree value : Value} {datum : Datum L} (h : readAs readLeaf filling shape tree = some datum)
    (hpath : tree.readPath path = some value) (hvalue : value ≠ .null) :
    ∃ field, datum.HasField path field ∧
      readAs readLeaf .deserializer target value = some field := by
  induction hfield generalizing filling tree datum with
  | here shape =>
    have htree : tree = value := Option.some.inj hpath
    subst htree
    refine ⟨datum, .here datum, ?_⟩
    cases filling with
    | deserializer => exact h
    | documented => exact absurd rfl hfilling
    | extraction =>
      have hstruct : shape.namedFields = none := by
        cases shape with
        | struct => cases hkind
        | option | sequence | map | scalar | other => rfl
      rw [← readAs_extraction_of_not_struct hstruct]
      exact h
  | @option inner target path hinner ih =>
    have hne : tree ≠ .null := by
      rintro rfl
      cases path with
      | nil => exact hvalue (Option.some.inj hpath).symm
      | cons key path =>
        rw [readPath_null_cons] at hpath
        cases hpath
    have hread : readAs readLeaf filling (.option inner) tree =
        (readAs readLeaf filling.inner inner tree).map .present := by
      cases tree <;> first | rfl | exact absurd rfl hne
    rw [hread] at h
    obtain ⟨inside, hinside, rfl⟩ := Option.map_eq_some_iff.mp h
    have hdeserializer : filling.inner ≠ .documented := by
      cases filling with
      | documented => exact absurd rfl hfilling
      | deserializer | extraction => exact nofun
    obtain ⟨field, hhas, hfield⟩ := ih hdeserializer hkind hinside hpath
    exact ⟨field, .present hhas, hfield⟩
  | field field hmem _ ih =>
    obtain ⟨table, values, rfl, _, hvalues, rfl⟩ := readAs_struct_eq_some_iff.mp h
    obtain ⟨inside, hinside, hname⟩ := readField_of_readFields hvalues hmem
    rw [Value.readPath, KeyedTree.readPath_cons, Value.child_ofObject] at hpath
    obtain ⟨child, hchild, hpath⟩ := Option.bind_eq_some_iff.mp hpath
    unfold readField at hinside
    rw [hchild] at hinside
    obtain ⟨target, hhas, htarget⟩ := ih hfilling hkind hinside hpath
    exact ⟨target, .record hname hhas, htarget⟩

namespace AppConfig

/-- The configurations that extractions lead to. -/
inductive Extracted (deps : Externals L) : AppConfig → AppConfig → Prop where
  | refl (app : AppConfig) : Extracted deps app app
  | step {app app' : AppConfig} (name : String) (T : StructShape L)
      (aliases : List (String × String)) : Extracted deps app app' →
      Extracted deps app (app'.sectionOf deps name T.shape aliases).2

theorem sectionOf_snd (deps : Externals L) (app : AppConfig) (name : String) (shape : Shape L)
    (aliases : List (String × String)) :
    (app.sectionOf deps name shape aliases).2 = (app.resolve deps name shape aliases).2 := by
  unfold sectionOf
  generalize app.resolve deps name shape aliases = out
  obtain ⟨result, app'⟩ := out
  cases result with
  | error error => rfl
  | ok pass =>
    simp only
    cases missingRequiredField shape (addMissingTables shape pass.1) with
    | some field => rfl
    | none => cases deps.fromValue shape (addMissingTables shape pass.1) <;> rfl

/-- Extractions leave the snapshot as it was taken. -/
theorem Extracted.env_eq {deps : Externals L} {app app' : AppConfig}
    (h : Extracted deps app app') : app'.env = app.env := by
  induction h with
  | refl => rfl
  | step name T aliases _ ih =>
    rw [sectionOf_snd, (resolve_spec deps _ name T.isStruct aliases).env_eq, ih]

/-- A section that succeeds has resolved. -/
theorem resolve_of_sectionOf_ok {deps : Externals L} {app : AppConfig} {name : String}
    {shape : Shape L} {aliases : List (String × String)} {datum : Datum L}
    (h : (app.sectionOf deps name shape aliases).1 = .ok datum) :
    ∃ tree applied, (app.resolve deps name shape aliases).1 = .ok (tree, applied) := by
  unfold sectionOf at h
  generalize app.resolve deps name shape aliases = out at h ⊢
  obtain ⟨result, app'⟩ := out
  cases result with
  | error error => cases h
  | ok pass => exact ⟨pass.1, pass.2, rfl⟩

/-- What a field whose derived variable is set holds once the section has succeeded: the
    variable is Unicode, it parses, and the parse is read into the field. -/
theorem field_of_derived_var {deps : Externals L}
    {readLeaf : Shape L → Value → Option (Datum L)} (hdeps : ReadsByDefault deps readLeaf)
    {app : AppConfig} {name : String} {T : StructShape L} {aliases : List (String × String)}
    {datum : Datum L} (h : (app.sectionOf deps name T.shape aliases).1 = .ok datum) {leaf : Leaf}
    (hleaf : leaf ∈ T.shape.leaves) {raw : OsString}
    (hraw : app.env (envVarName deps.tables name leaf.path) = some raw) :
    ∃ text value target field, raw = .unicode text ∧
      parseEnvValue deps text leaf.kind = .ok value ∧ T.shape.FieldAt leaf.path target ∧
      target.leafKind = some leaf.kind ∧ datum.HasField leaf.path field ∧
      readAs readLeaf .deserializer target value = some field := by
  obtain ⟨tree, applied, hresolve⟩ := resolve_of_sectionOf_ok h
  have hvalue := resolveValue_of_resolve_ok T.isStruct hresolve
  obtain ⟨_, _, _, _, hreads⟩ := resolveValue_ok hvalue
  have hsource : (envVarName deps.tables name leaf.path, leaf) ∈
      sources deps.tables name T.shape.leaves aliases :=
    List.mem_append_right _ (List.mem_map.mpr ⟨leaf, hleaf, rfl⟩)
  obtain ⟨value?, hread⟩ := hreads _ hsource
  have hvar := readVar_eq_varValue hread
  unfold readVar at hread
  rw [hraw] at hread
  cases raw with
  | bytes bytes => cases hread
  | unicode text =>
    simp only [OsString.toStr] at hread
    cases hparse : parseEnvValue deps text leaf.kind with
    | error expected => rw [hparse] at hread; cases hread
    | ok value =>
      rw [hparse] at hread
      cases hread
      have hpath := readPath_resolved hvalue hleaf
      rw [← hvar, Option.some_or, Option.some_or] at hpath
      obtain ⟨target, htarget, hkind⟩ := Shape.mem_leaves_iff.mp hleaf
      have hextraction : Filling.extraction ≠ .documented := nofun
      obtain ⟨field, hhas, hfield⟩ := hasField_of_readAs hextraction htarget hkind
        ((sectionOf_ok_iff hdeps hresolve).mp h) hpath (parseEnvValue_plain hparse).2
      exact ⟨text, value, target, field, rfl, hparse, htarget, hkind, hhas, hfield⟩

/-- A variable the snapshot holds is the one of the process, and it holds all but the
    loader's own. -/
theorem snapshot_eq {process : Process} {name : String} (hpath : name ≠ configPathVar)
    (hinline : name ≠ inlineConfigVar) : snapshot process name = process.env (.unicode name) :=
  if_pos ⟨hpath, hinline⟩

/-- A field whose variable is not in the snapshot, and which no alias targets, keeps what
    the file has. -/
theorem readPath_resolved_of_unset {deps : Externals L} {app : AppConfig} {name : String}
    {T : StructShape L} {aliases : List (String × String)} {tree : Value} {applied : List String}
    (h : resolveValue deps app name T.shape aliases = .ok (tree, applied)) {leaf : Leaf}
    (hleaf : leaf ∈ T.shape.leaves)
    (hunset : app.env (envVarName deps.tables name leaf.path) = none)
    (halias : ∀ entry ∈ aliases, entry.1 ≠ ".".intercalate leaf.path) :
    tree.readPath leaf.path = (app.fileTree name).readPath leaf.path := by
  have hderived : varValue deps app (envVarName deps.tables name leaf.path) leaf = none := by
    rw [varValue, hunset]
    rfl
  have haliased : ((aliasSources name T.shape.leaves aliases).1.filter fun source =>
      source.2.path = leaf.path) = [] := by
    rw [List.filter_eq_nil_iff]
    intro source hsource hpath
    obtain ⟨_, hentry⟩ := mem_of_aliasSources hsource
    rw [of_decide_eq_true hpath] at hentry
    exact halias _ hentry rfl
  rw [readPath_resolved h hleaf, hderived, haliased]
  rfl

end AppConfig

open AppConfig in
/-- No override is dropped in silence but the one that is the loader's. A variable of the
    process that is the derived one of a field, and none of the loader's own, makes the
    section fail or reaches the field. Of the loader's two the one of the inline
    configuration is no field's, and a field that has the other one resolves as if it were
    not set. -/
theorem set_override_reaches_field (deps : Externals L)
    (readLeaf : Shape L → Value → Option (Datum L)) (hdeps : ReadsByDefault deps readLeaf)
    (process : Process) (loaded app : AppConfig) (hload : AppConfig.load process = .ok loaded)
    (happ : Extracted deps loaded app) (name : String) (T : StructShape L)
    (aliases : List (String × String)) (leaf : Leaf) (hleaf : leaf ∈ T.shape.leaves) :
    (∀ raw, process.env (.unicode (envVarName deps.tables name leaf.path)) = some raw →
      envVarName deps.tables name leaf.path ≠ configPathVar →
      (∃ error, (app.sectionOf deps name T.shape aliases).1 = .error error) ∨
      ∃ datum text value target field,
        (app.sectionOf deps name T.shape aliases).1 = .ok datum ∧ raw = .unicode text ∧
        parseEnvValue deps text leaf.kind = .ok value ∧ T.shape.FieldAt leaf.path target ∧
        target.leafKind = some leaf.kind ∧ datum.HasField leaf.path field ∧
        readAs readLeaf .deserializer target value = some field) ∧
    envVarName deps.tables name leaf.path ≠ inlineConfigVar ∧
    (envVarName deps.tables name leaf.path = configPathVar ↔
      deps.tables.toUppercase name = "CONFIG" ∧
        ∃ segment, leaf.path = [segment] ∧ deps.tables.toUppercase segment = "PATH") ∧
    (envVarName deps.tables name leaf.path = configPathVar →
      (∀ entry ∈ aliases, entry.1 ≠ ".".intercalate leaf.path) →
      ∀ tree applied, (app.resolve deps name T.shape aliases).1 = .ok (tree, applied) →
        tree.readPath leaf.path = (app.fileTree name).readPath leaf.path) := by
  have hne := T.path_ne_nil hleaf
  have hinline := envVarName_ne_inlineConfigVar deps.tables name hne
  have henv : app.env = snapshot process := happ.env_eq.trans (env_of_load hload)
  refine ⟨?_, hinline, envVarName_eq_configPathVar_iff deps.tables name hne, ?_⟩
  · intro raw hraw hpath
    cases hsection : (app.sectionOf deps name T.shape aliases).1 with
    | error error => exact Or.inl ⟨error, rfl⟩
    | ok datum =>
      have hheld : app.env (envVarName deps.tables name leaf.path) = some raw := by
        rw [henv, snapshot_eq hpath hinline, hraw]
      obtain ⟨text, value, target, field, htext, hparse, htarget, hkind, hhas, hfield⟩ :=
        field_of_derived_var hdeps hsection hleaf hheld
      exact Or.inr ⟨datum, text, value, target, field, rfl, htext, hparse, htarget, hkind, hhas,
        hfield⟩
  · intro hpath halias tree applied hok
    have hvalue := resolveValue_of_resolve_ok T.isStruct hok
    have hunset : app.env (envVarName deps.tables name leaf.path) = none := by
      rw [henv, hpath, snapshot]
      exact if_neg fun h => h.1 rfl
    exact readPath_resolved_of_unset hvalue hleaf hunset halias

/-- A section with one optional text. -/
def textShape (field : String) : StructShape Value where
  shape := .struct true [⟨field, .option (.scalar .string), none, none⟩]
  isStruct := rfl
  distinct := by
    refine .struct (List.nodup_singleton _) ?_
    simp only [List.forall_mem_cons, List.not_mem_nil, false_implies, implies_true, and_true]
    exact .option .scalar

/-- A process with one variable and a file that has no sections. -/
def textProcess (var value : String) : Process where
  env name := if name = .unicode var then some (.unicode value) else none
  tryExists _ := .ok true
  build _ := .ok fun _ => .error .notFound

/-- The path the loader read its file from is dropped where it is also the override of a
    field. -/
theorem path_override_dropped :
    ∃ loaded, AppConfig.load (textProcess "QUIZ_ARENA_CONFIG_PATH" "settings.toml") = .ok loaded ∧
      ⟨["path"], .scalar .string⟩ ∈ (textShape "path").shape.leaves ∧
      envVarName scalarExternals.tables "config" ["path"] = "QUIZ_ARENA_CONFIG_PATH" ∧
      (loaded.sectionOf scalarExternals "config" (textShape "path").shape []).1 =
        .ok (.record [("path", .absent)]) ∧
      ¬ ∃ field, (Datum.record [("path", .absent)]).HasField ["path"] field ∧
        readAs readScalar .deserializer (.scalar .string) (.string "settings.toml") =
          some field := by
  refine ⟨_, rfl, by decide, by decide, rfl, ?_⟩
  rintro ⟨field, hhas, hread⟩
  cases hread
  cases hhas with
  | record hmem hinner =>
    rw [List.mem_singleton, Prod.mk.injEq] at hmem
    obtain ⟨_, rfl⟩ := hmem
    cases hinner

theorem set_override_reaches_field_token :
    ∃ loaded datum, AppConfig.load (textProcess "QUIZ_ARENA_CLIENT_TOKEN" "secret") = .ok loaded ∧
      (loaded.sectionOf scalarExternals "client" (textShape "token").shape []).1 = .ok datum ∧
      datum.HasField ["token"] (.leaf (.string "secret")) := by
  refine ⟨_, _, rfl, rfl, ?_⟩
  have h := (set_override_reaches_field scalarExternals readScalar readsByDefault_scalarExternals
    (textProcess "QUIZ_ARENA_CLIENT_TOKEN" "secret") _ _ rfl (.refl _) "client" (textShape "token")
    [] ⟨["token"], .scalar .string⟩ (by decide)).1 (.unicode "secret") (by decide) (by decide)
  rcases h with ⟨error, herror⟩ | ⟨datum, text, value, target, field, hdatum, htext, hparse,
    _, hkind, hhas, hfield⟩
  · cases herror
  · cases hdatum
    cases htext
    cases hparse
    have htarget : target = .scalar .string := by
      cases target with
      | scalar s => cases s <;> first | rfl | cases hkind
      | struct | option | sequence | map | other => cases hkind
    subst htarget
    cases hfield
    exact hhas

end QuizArena.Config
