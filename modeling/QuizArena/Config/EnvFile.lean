import QuizArena.Config.Reading

/-!
# Environment and file agree

Setting a leaf in the file and setting its derived variable to the text of the same
value leave the same tree. A tree is determined by what it shows at every path, so
it is enough that both trees hold exactly the assigned leaves and the tables on the
way to them; the values agree because each parser reads back what is printed.
-/

namespace QuizArena.Config

open Lib

variable {L : Type}

/-! ## Scalars that both layers can express -/

/-- A TOML value of a boolean, integer or text field. -/
inductive TomlScalar where
  | boolean (boolean : Bool)
  | integer (number : Int64)
  | string (string : String)
  deriving DecidableEq

namespace TomlScalar

/-- The value in the file layers. -/
def toConfig : TomlScalar → ConfigValue
  | .boolean value => .boolean value
  | .integer value => .i64 value
  | .string value => .string value

/-- The text form: `true` or `false`, decimal digits, the string itself. -/
def text : TomlScalar → String
  | .boolean value => if value then "true" else "false"
  | .integer value => toString value.toInt
  | .string value => value

/-- The value in the section's tree. -/
def toValue : TomlScalar → Value
  | .boolean value => .bool value
  | .integer value => .int value.toInt
  | .string value => .string value

theorem toFacetValue_toConfig (scalar : TomlScalar) :
    toFacetValue scalar.toConfig = scalar.toValue := by
  cases scalar <;> rfl

theorem isObject_toValue (scalar : TomlScalar) : scalar.toValue.isObject = false := by
  cases scalar <;> rfl

end TomlScalar

/-- Whether the type is a text or is read from one. -/
def ScalarType.isText : ScalarType → Bool
  | .char | .str | .string | .cowStr => true
  | .socketAddr | .ipAddr | .ipv4Addr | .ipv6Addr => true
  | _ => false

/-- Whether a value is one of the leaf's kind and in its range. -/
def LeafKind.Admits : LeafKind → TomlScalar → Prop
  | .scalar s, .boolean _ => s = .bool
  | .scalar s, .integer number =>
    ∃ signed bits, s.integerType = some (signed, bits) ∧ InRange signed bits number.toInt
  | .scalar s, .string _ => s.isText = true
  | .text, .string _ => True
  | _, _ => False

/-- Every kind reads a value it admits back from its text. -/
theorem parseEnvValue_text (deps : Externals L) {kind : LeafKind} {scalar : TomlScalar}
    (h : kind.Admits scalar) : parseEnvValue deps scalar.text kind = .ok scalar.toValue := by
  cases kind with
  | scalar s =>
    cases scalar with
    | boolean value =>
      have hs : s = .bool := h
      subst hs
      cases value <;> rfl
    | integer value =>
      obtain ⟨signed, bits, hs, hrange⟩ := h
      have hread : parseIntegerValue signed bits (toString value.toInt) =
          .ok (.int value.toInt) := by
        rw [parseIntegerValue, parseInteger_toString hrange]
        rfl
      cases s <;> cases hs <;> exact hread
    | string value =>
      have hs : s.isText = true := h
      cases s with
      | char | str | string | cowStr | socketAddr | ipAddr | ipv4Addr | ipv6Addr => rfl
      | _ => cases hs
  | list => cases scalar <;> cases h
  | text =>
    cases scalar with
    | string value => rfl
    | boolean | integer => cases h

/-! ## Trees that hold exactly an assignment -/

variable {T : StructShape L} {assign : Leaf → Option TomlScalar}

/-- The tree holds the assigned leaves, the tables on the way to them and nothing
    else. -/
structure Holds (T : StructShape L) (assign : Leaf → Option TomlScalar) (tree : Value) : Prop where
  root : KeyedTree.IsTable tree
  leaf : ∀ leaf ∈ T.shape.leaves, ∀ scalar, assign leaf = some scalar →
    tree.readPath leaf.path = some scalar.toValue
  only : ∀ path, tree.readPath path ≠ none →
    path = [] ∨ ∃ leaf ∈ T.shape.leaves, assign leaf ≠ none ∧ path <+: leaf.path

/-- On the way to an assigned leaf stands a table, at the leaf its value. -/
theorem Holds.head_readPath {tree : Value} (h : Holds T assign tree) {leaf : Leaf}
    (hleaf : leaf ∈ T.shape.leaves) {scalar : TomlScalar} (hassign : assign leaf = some scalar)
    {path : List String} (hpath : path <+: leaf.path) :
    (tree.readPath path).map Value.head =
      some (if path = leaf.path then some scalar.toValue else none) := by
  have hread := h.leaf leaf hleaf scalar hassign
  obtain ⟨rest, hrest⟩ := hpath
  cases rest with
  | nil =>
    rw [List.append_nil] at hrest
    rw [hrest, hread, if_pos rfl, Option.map_some, Value.head, scalar.isObject_toValue]
    rfl
  | cons key rest =>
    have hne : path ≠ leaf.path := by
      intro heq
      have hlength := congrArg List.length hrest
      rw [heq, List.length_append, List.length_cons] at hlength
      omega
    have hbelow : tree.readPath (path ++ key :: rest) ≠ none := by
      rw [hrest, hread]
      simp
    have hpresent : tree.readPath path ≠ none :=
      KeyedTree.readPath_along (List.prefix_append path (key :: rest)) hbelow
    obtain ⟨node, hnode⟩ := Option.ne_none_iff_exists'.mp hpresent
    obtain ⟨table, rfl⟩ := Value.isTable_iff.mp (KeyedTree.isTable_of_readPath_cons hnode hbelow)
    rw [hnode, if_neg hne, Option.map_some, Value.head_ofObject]

/-- An assignment leaves only one tree to hold it. -/
theorem Holds.unique {tree tree' : Value} (h : Holds T assign tree) (h' : Holds T assign tree') :
    tree = tree' := by
  have hsame : ∀ {a b : Value}, Holds T assign a → Holds T assign b → ∀ path,
      a.readPath path ≠ none →
        (a.readPath path).map Value.head = (b.readPath path).map Value.head := by
    intro a b ha hb path hpresent
    rcases ha.only path hpresent with rfl | ⟨leaf, hleaf, hset, hpath⟩
    · obtain ⟨table, rfl⟩ := Value.isTable_iff.mp ha.root
      obtain ⟨table', rfl⟩ := Value.isTable_iff.mp hb.root
      rfl
    · obtain ⟨scalar, hscalar⟩ := Option.ne_none_iff_exists'.mp hset
      rw [ha.head_readPath hleaf hscalar hpath, hb.head_readPath hleaf hscalar hpath]
  apply Value.eq_of_reads
  intro path
  by_cases hpresent : tree.readPath path = none
  · by_cases hpresent' : tree'.readPath path = none
    · rw [hpresent, hpresent']
    · exact (hsame h' h path hpresent').symm
  · exact hsame h h' path hpresent

/-- What the file layers have for the section holds the assignment; a file without
    any leaf of the section need not have the section. -/
def FileHolds (T : StructShape L) (assign : Leaf → Option TomlScalar) :
    Except ConfigError ConfigValue → Prop
  | .ok file => file.isTable = true ∧
    (∀ leaf ∈ T.shape.leaves, ∀ scalar, assign leaf = some scalar →
      file.readPath leaf.path = some scalar.toConfig) ∧
    ∀ path, file.readPath path ≠ none →
      path = [] ∨ ∃ leaf ∈ T.shape.leaves, assign leaf ≠ none ∧ path <+: leaf.path
  | .error .notFound => ∀ leaf ∈ T.shape.leaves, assign leaf = none
  | .error (.other _) => False

/-- The environment holds the text of every assigned leaf under its derived name, and
    nothing else. -/
structure EnvHolds (tables : UnicodeTables) (name : String) (T : StructShape L)
    (assign : Leaf → Option TomlScalar) (env : String → Option OsString) : Prop where
  leaf : ∀ leaf ∈ T.shape.leaves,
    env (envVarName tables name leaf.path) = (assign leaf).map fun scalar => .unicode scalar.text
  only : ∀ var, env var ≠ none → ∃ leaf ∈ T.shape.leaves, var = envVarName tables name leaf.path

namespace AppConfig

theorem holds_emptyTable (hnone : ∀ leaf ∈ T.shape.leaves, assign leaf = none) :
    Holds T assign (.ofObject VObject.new) where
  root := Value.isTable_ofObject _
  leaf := by
    intro leaf hleaf scalar hscalar
    rw [hnone leaf hleaf] at hscalar
    cases hscalar
  only := by
    intro path hpath
    cases path with
    | nil => exact Or.inl rfl
    | cons key path => exact absurd (KeyedTree.readPath_empty_cons key path) hpath

/-- A file that holds the assignment gives a section that does. -/
theorem sectionTree_of_fileHolds {app : AppConfig} {name : String}
    (h : FileHolds T assign (app.tree name)) :
    ∃ tree, app.sectionTree name = .ok tree ∧ Holds T assign tree := by
  unfold sectionTree
  cases htree : app.tree name with
  | ok file =>
    rw [htree] at h
    obtain ⟨htable, hleaf, honly⟩ := h
    refine ⟨toFacetValue file, by simp [htable], ?_, ?_, ?_⟩
    · rw [← ConfigValue.isObject_toFacetValue file] at htable
      exact htable
    · intro leaf hmem scalar hscalar
      rw [ConfigValue.readPath_toFacetValue, hleaf leaf hmem scalar hscalar, Option.map_some,
        scalar.toFacetValue_toConfig]
    · intro path hpath
      apply honly path
      intro hnone
      rw [ConfigValue.readPath_toFacetValue, hnone] at hpath
      exact hpath rfl
  | error error =>
    rw [htree] at h
    cases error with
    | notFound => exact ⟨_, rfl, holds_emptyTable h⟩
    | other message => exact h.elim

/-! ## The two resolutions -/

section Env

variable {deps : Externals L} {app : AppConfig} {name : String}
  {aliases : List (String × String)} (hdots : aliases ≠ [] → T.shape.DotFreeNames)
  (hnames : (T.shape.leaves.map fun leaf => envVarName deps.tables name leaf.path).Nodup)
  (hadmits : ∀ leaf ∈ T.shape.leaves, ∀ scalar, assign leaf = some scalar →
    leaf.kind.Admits scalar)
  (henv : EnvHolds deps.tables name T assign app.env)
  (hclash : ¬ Clash app.claimed (claims deps.tables name T.shape.leaves aliases))

include hdots hnames henv hclash

/-- Without a clash, a variable that is set is the derived one of its leaf. -/
theorem assigned_of_set {source : Source}
    (hsource : source ∈ sources deps.tables name T.shape.leaves aliases)
    (hset : app.env source.1 ≠ none) :
    ∃ scalar, assign source.2 = some scalar ∧ app.env source.1 = some (.unicode scalar.text) := by
  obtain ⟨leaf, hleaf, hvar⟩ := henv.only source.1 hset
  have hsame : source.2 = leaf := by
    rcases List.mem_append.mp hsource with halias | hderived
    · -- an alias that is a derived name is claimed for both leaves
      obtain ⟨hmem, hentry⟩ := mem_of_aliasSources halias
      have hfree := hdots (List.ne_nil_of_mem hentry)
      have hclaim : claimOf name source ∈ claims deps.tables name T.shape.leaves aliases :=
        List.mem_map.mpr ⟨source, hsource, rfl⟩
      have hclaim' : (source.1, claimTarget name leaf.path) ∈
          claims deps.tables name T.shape.leaves aliases := by
        refine List.mem_map.mpr ⟨(source.1, leaf), List.mem_append_right _ ?_, rfl⟩
        exact List.mem_map.mpr ⟨leaf, hleaf, by rw [hvar]⟩
      have htarget : claimTarget name leaf.path = claimTarget name source.2.path := by
        by_contra hne
        exact hclash ⟨source.1, _, _, hclaim, hne, Or.inr hclaim'⟩
      exact T.leaf_eq hmem hleaf (claimTarget_injective hfree hleaf hmem htarget).symm
    · obtain ⟨leaf', hleaf', heq⟩ := List.mem_map.mp hderived
      subst heq
      exact List.inj_on_of_nodup_map hnames hleaf' hleaf hvar
  have htext := henv.leaf leaf hleaf
  rw [← hvar] at htext
  rw [htext] at hset
  obtain ⟨scalar, hscalar⟩ : ∃ scalar, assign leaf = some scalar := by
    rw [← Option.ne_none_iff_exists']
    intro hnone
    rw [hnone] at hset
    exact hset rfl
  refine ⟨scalar, by rw [hsame, hscalar], ?_⟩
  rw [htext, hscalar]
  rfl

include hadmits

/-- Without a clash, every source reads its leaf's assignment or nothing. -/
theorem readVar_of_envHolds {source : Source}
    (hsource : source ∈ sources deps.tables name T.shape.leaves aliases) :
    readVar deps app.env source = .ok none ∨ ∃ scalar, assign source.2 = some scalar ∧
      readVar deps app.env source = .ok (some scalar.toValue) := by
  by_cases hset : app.env source.1 = none
  · exact Or.inl (by simp only [readVar, hset])
  · obtain ⟨scalar, hscalar, htext⟩ := assigned_of_set hdots hnames henv hclash hsource hset
    have hkind := hadmits source.2 (mem_leaves_of_sources hsource) scalar hscalar
    refine Or.inr ⟨scalar, hscalar, ?_⟩
    simp only [readVar, htext, OsString.toStr, parseEnvValue_text deps hkind]

/-- What the environment writes is the assignment. -/
theorem mem_writes_iff_of_envHolds {w : List String × Value} :
    w ∈ writes deps app.env (sources deps.tables name T.shape.leaves aliases) ↔
      ∃ leaf ∈ T.shape.leaves, ∃ scalar, assign leaf = some scalar ∧
        w = (leaf.path, scalar.toValue) := by
  constructor
  · intro hw
    obtain ⟨source, hsource, hw⟩ := List.mem_filterMap.mp hw
    rcases readVar_of_envHolds hdots hnames hadmits henv hclash hsource with
      hnone | ⟨scalar, hscalar, hread⟩
    · rw [hnone] at hw
      cases hw
    · rw [hread] at hw
      cases hw
      exact ⟨source.2, mem_leaves_of_sources hsource, scalar, hscalar, rfl⟩
  · intro h
    obtain ⟨leaf, hleaf, scalar, hscalar, rfl⟩ := h
    have hsource : (envVarName deps.tables name leaf.path, leaf) ∈
        sources deps.tables name T.shape.leaves aliases :=
      List.mem_append_right _ (List.mem_map.mpr ⟨leaf, hleaf, rfl⟩)
    refine List.mem_filterMap.mpr ⟨_, hsource, ?_⟩
    have htext := henv.leaf leaf hleaf
    rw [hscalar, Option.map_some] at htext
    simp only [readVar, htext, OsString.toStr,
      parseEnvValue_text deps (hadmits leaf hleaf scalar hscalar)]

/-- The environment leaves a tree that holds the assignment. -/
theorem holds_of_envHolds {base : Value} (hbase : Holds T (fun _ => none) base) :
    Holds T assign (KeyedTree.writeAll base
      (writes deps app.env (sources deps.tables name T.shape.leaves aliases))) := by
  have hwrites : ∀ w, w ∈ writes deps app.env (sources deps.tables name T.shape.leaves aliases) ↔
      ∃ leaf ∈ T.shape.leaves, ∃ scalar, assign leaf = some scalar ∧
        w = (leaf.path, scalar.toValue) :=
    fun _ => mem_writes_iff_of_envHolds hdots hnames hadmits henv hclash
  refine ⟨?_, ?_, ?_⟩
  · apply KeyedTree.isTable_writeAll hbase.root
    intro w hw
    obtain ⟨leaf, hleaf, scalar, _, rfl⟩ := (hwrites w).mp hw
    exact T.path_ne_nil hleaf
  · intro leaf hleaf scalar hscalar
    -- every write is to this leaf with this value or does not touch it, and one is to it
    have hpaths : ∀ w ∈ writes deps app.env (sources deps.tables name T.shape.leaves aliases),
        w.1 = leaf.path ∨ KeyedTree.Incomparable w.1 leaf.path := by
      intro w hw
      obtain ⟨leaf', hleaf', scalar', _, rfl⟩ := (hwrites w).mp hw
      by_cases heq : leaf' = leaf
      · exact Or.inl (by rw [heq])
      · exact Or.inr (T.incomparable hleaf' hleaf heq)
    have hvalue : ∀ w ∈ writes deps app.env (sources deps.tables name T.shape.leaves aliases),
        w.1 = leaf.path → w.2 = scalar.toValue := by
      intro w hw hpath
      obtain ⟨leaf', hleaf', scalar', hscalar', rfl⟩ := (hwrites w).mp hw
      rw [T.leaf_eq hleaf' hleaf hpath, hscalar, Option.some.injEq] at hscalar'
      rw [hscalar']
    have hwritten : (leaf.path, scalar.toValue) ∈
        writes deps app.env (sources deps.tables name T.shape.leaves aliases) :=
      (hwrites _).mpr ⟨leaf, hleaf, scalar, hscalar, rfl⟩
    rw [Value.readPath, KeyedTree.readPath_writeAll _ hpaths]
    obtain ⟨w, hw⟩ : ∃ w, ((writes deps app.env (sources deps.tables name T.shape.leaves
        aliases)).filter fun w => w.1 = leaf.path).getLast? = some w := by
      rw [← Option.ne_none_iff_exists', ne_eq, List.getLast?_eq_none_iff]
      apply List.ne_nil_of_mem
      exact List.mem_filter.mpr ⟨hwritten, by simp⟩
    have hmem := List.mem_filter.mp (List.mem_of_getLast? hw)
    rw [hw, Option.map_some, Option.some_or, hvalue w hmem.1 (of_decide_eq_true hmem.2)]
  · intro path hpath
    by_cases hold : base.readPath path = none
    · obtain ⟨w, hw, hreach⟩ := KeyedTree.prefix_of_readPath_writeAll hpath hold
      obtain ⟨leaf, hleaf, scalar, hscalar, rfl⟩ := (hwrites w).mp hw
      refine Or.inr ⟨leaf, hleaf, by simp [hscalar], ?_⟩
      rcases hreach with hbefore | ⟨rest, rfl, hrest⟩
      · exact hbefore
      · cases rest with
        | nil => simp
        | cons key rest =>
          exact absurd (readPath_cons_of_not_object scalar.isObject_toValue key rest) hrest
    · rcases hbase.only path hold with hroot | ⟨leaf, hleaf, hset, _⟩
      · exact Or.inl hroot
      · exact absurd rfl hset

end Env

/-- Extractions that resolve alike have the same values. -/
theorem sectionOf_ok_of_resolve {deps : Externals L} {app app' : AppConfig} {name : String}
    {shape : Shape L} {aliases : List (String × String)}
    (h : ∀ tree applied, (app.resolve deps name shape aliases).1 = .ok (tree, applied) →
      ∃ applied', (app'.resolve deps name shape aliases).1 = .ok (tree, applied'))
    {value : Datum L} (hok : (app.sectionOf deps name shape aliases).1 = .ok value) :
    (app'.sectionOf deps name shape aliases).1 = .ok value := by
  unfold sectionOf at hok ⊢
  generalize app.resolve deps name shape aliases = out at h hok
  generalize app'.resolve deps name shape aliases = out' at h ⊢
  obtain ⟨result, app₁⟩ := out
  obtain ⟨result', app₁'⟩ := out'
  cases result with
  | error error => cases hok
  | ok pass =>
    obtain ⟨applied', happlied⟩ := h pass.1 pass.2 rfl
    simp only at happlied
    subst happlied
    simp only at hok ⊢
    cases hmissing : missingRequiredField shape (addMissingTables shape pass.1) with
    | some field =>
      rw [hmissing] at hok
      cases hok
    | none =>
      rw [hmissing] at hok
      simp only at hok ⊢
      cases hfrom : deps.fromValue shape (addMissingTables shape pass.1) with
      | error message =>
        rw [hfrom] at hok
        cases hok
      | ok value' =>
        rw [hfrom] at hok
        exact hok

/-- A section whose variables can be read whenever no name clashes, and then leave a
    tree that holds the assignment, resolves to that tree exactly when every alias is
    known and no name clashes. -/
theorem resolve_holds_iff (T : StructShape L) (assign : Leaf → Option TomlScalar)
    (deps : Externals L) (aliases : List (String × String)) {app : AppConfig} {name : String}
    {base : Value} (hbase : app.sectionTree name = .ok base)
    (hsources : ¬ Clash app.claimed (claims deps.tables name T.shape.leaves aliases) →
      (∀ source ∈ sources deps.tables name T.shape.leaves aliases,
        ∃ value?, readVar deps app.env source = .ok value?) ∧
      Holds T assign (KeyedTree.writeAll base
        (writes deps app.env (sources deps.tables name T.shape.leaves aliases)))) :
    (∀ tree applied, (app.resolve deps name T.shape aliases).1 = .ok (tree, applied) →
      Holds T assign tree) ∧
    ((∃ result, (app.resolve deps name T.shape aliases).1 = .ok result) ↔
      (aliasSources name T.shape.leaves aliases).2 = none ∧
      ¬ Clash app.claimed (claims deps.tables name T.shape.leaves aliases)) := by
  have hiff := resolve_ok_iff deps app name T.isStruct aliases
  constructor
  · intro tree applied hok
    obtain ⟨_, _, _, hclash⟩ := hiff.mp ⟨_, hok⟩
    obtain ⟨base', hbase', _, htree, _⟩ :=
      resolveValue_ok (resolveValue_of_resolve_ok T.isStruct hok)
    rw [hbase, Except.ok.injEq] at hbase'
    rw [htree, ← hbase']
    exact (hsources hclash).2
  · rw [hiff]
    constructor
    · intro h
      exact ⟨h.2.1, h.2.2.2⟩
    · intro h
      exact ⟨⟨base, hbase⟩, h.1, (hsources h.2).1, h.2⟩

end AppConfig

open AppConfig in
/-- Environment and file agree: an assignment of the leaves written to the file, under
    an empty environment, and one put into the derived variables, over an empty file,
    give the same configuration or both fail. Dots in field names matter only to
    aliases. -/
theorem env_agrees_with_file (deps : Externals L) (T : StructShape L) (name : String)
    (aliases : List (String × String)) (hdots : aliases ≠ [] → T.shape.DotFreeNames)
    (hnames : (T.shape.leaves.map fun leaf => envVarName deps.tables name leaf.path).Nodup)
    (assign : Leaf → Option TomlScalar)
    (hadmits : ∀ leaf ∈ T.shape.leaves, ∀ scalar, assign leaf = some scalar →
      leaf.kind.Admits scalar)
    (fileApp envApp : AppConfig) (hclaimed : fileApp.claimed = envApp.claimed)
    (hfile : FileHolds T assign (fileApp.tree name)) (hnoEnv : ∀ var, fileApp.env var = none)
    (hnoFile : FileHolds T (fun _ => none) (envApp.tree name))
    (henv : EnvHolds deps.tables name T assign envApp.env) (value : Datum L) :
    (fileApp.sectionOf deps name T.shape aliases).1 = .ok value ↔
      (envApp.sectionOf deps name T.shape aliases).1 = .ok value := by
  obtain ⟨fileBase, hfileBase, hfileHolds⟩ := sectionTree_of_fileHolds hfile
  obtain ⟨envBase, henvBase, henvHolds⟩ := sectionTree_of_fileHolds hnoFile
  have hunset : ∀ source, readVar deps fileApp.env source = .ok none := by
    intro source
    simp only [readVar, hnoEnv]
  have hnoWrites : ∀ sources, writes deps fileApp.env sources = [] := by
    intro sources
    apply List.filterMap_eq_nil_iff.mpr
    intro source _
    rw [hunset]
  obtain ⟨hfileTree, hfileOk⟩ := resolve_holds_iff T assign deps aliases hfileBase
    fun _ => by
      rw [hnoWrites]
      exact ⟨fun source _ => ⟨none, hunset source⟩, hfileHolds⟩
  obtain ⟨henvTree, henvOk⟩ := resolve_holds_iff T assign deps aliases henvBase
    fun hclash => by
      refine ⟨?_, holds_of_envHolds hdots hnames hadmits henv hclash henvHolds⟩
      intro source hsource
      rcases readVar_of_envHolds hdots hnames hadmits henv hclash hsource with
        hnone | ⟨scalar, _, hread⟩
      · exact ⟨none, hnone⟩
      · exact ⟨some scalar.toValue, hread⟩
  rw [hclaimed] at hfileOk
  constructor
  · apply sectionOf_ok_of_resolve
    intro tree applied hok
    obtain ⟨⟨tree', applied'⟩, hok'⟩ := henvOk.mpr (hfileOk.mp ⟨_, hok⟩)
    rw [(hfileTree tree applied hok).unique (henvTree tree' applied' hok')]
    exact ⟨applied', hok'⟩
  · apply sectionOf_ok_of_resolve
    intro tree applied hok
    obtain ⟨⟨tree', applied'⟩, hok'⟩ := hfileOk.mpr (henvOk.mp ⟨_, hok⟩)
    rw [(henvTree tree applied hok).unique (hfileTree tree' applied' hok')]
    exact ⟨applied', hok'⟩

/-- A port and a number of attempts. -/
def sampleAssignment (leaf : Leaf) : Option TomlScalar :=
  if leaf.path = ["port"] then some (.integer 8081)
  else if leaf.path = ["retry", "max_attempts"] then some (.integer (-2))
  else none

/-- The assignment in the file. -/
def sampleFileApp : AppConfig :=
  .new (fun _ => .ok (.table {"port", "retry"} fun key =>
      if key = "port" then .i64 8081 else .table {"max_attempts"} fun _ => .i64 (-2)))
    fun _ => none

/-- The assignment in the environment. -/
def sampleEnvApp : AppConfig :=
  .new (fun _ => .error .notFound) fun var =>
    if var = "QUIZ_ARENA_MY_MODULE_PORT" then some (.unicode "8081")
    else if var = "QUIZ_ARENA_MY_MODULE_RETRY_MAX_ATTEMPTS" then some (.unicode "-2")
    else none

theorem sampleFileApp_holds :
    FileHolds (L := Value) sampleShape sampleAssignment (sampleFileApp.tree "my_module") := by
  refine ⟨rfl, ?_, ?_⟩
  · intro leaf hleaf scalar hscalar
    rcases List.mem_cons.mp hleaf with rfl | hleaf
    · cases hscalar
      rfl
    · rw [List.mem_singleton.mp hleaf] at hscalar ⊢
      cases hscalar
      rfl
  · intro path hpath
    match path with
    | [] => exact Or.inl rfl
    | key :: rest =>
      refine Or.inr ?_
      by_cases hport : key = "port"
      · subst hport
        match rest with
        | [] => exact ⟨⟨["port"], .scalar .u16⟩, by decide, by decide, by decide⟩
        | _ :: _ => exact absurd rfl hpath
      · by_cases hretry : key = "retry"
        · subst hretry
          match rest with
          | [] => exact ⟨⟨["retry", "max_attempts"], .scalar .i64⟩, by decide, by decide, by decide⟩
          | key' :: rest =>
            by_cases hattempts : key' = "max_attempts"
            · subst hattempts
              match rest with
              | [] =>
                exact ⟨⟨["retry", "max_attempts"], .scalar .i64⟩, by decide, by decide, by decide⟩
              | _ :: _ => exact absurd rfl hpath
            · exact absurd (by simp [ConfigValue.readPath, hattempts])
                hpath
        · exact absurd (by simp [ConfigValue.readPath, hport, hretry])
            hpath

theorem sampleEnvApp_holds : EnvHolds (L := Value) scalarExternals.tables "my_module" sampleShape
    sampleAssignment sampleEnvApp.env where
  leaf := by
    intro leaf hleaf
    rcases List.mem_cons.mp hleaf with rfl | hleaf
    · rfl
    · rw [List.mem_singleton.mp hleaf]
      rfl
  only := by
    intro var hvar
    by_cases hport : var = "QUIZ_ARENA_MY_MODULE_PORT"
    · exact ⟨⟨["port"], .scalar .u16⟩, by decide, hport⟩
    · by_cases hretry : var = "QUIZ_ARENA_MY_MODULE_RETRY_MAX_ATTEMPTS"
      · exact ⟨⟨["retry", "max_attempts"], .scalar .i64⟩, by decide, hretry⟩
      · exact absurd (by simp [sampleEnvApp, AppConfig.new, hport, hretry]) hvar

theorem env_agrees_with_file_sample :
    (sampleEnvApp.sectionOf scalarExternals "my_module" sampleShape.shape []).1 =
      .ok (.record [("port", .leaf (.int 8081)),
        ("retry", .record [("max_attempts", .leaf (.int (-2)))])]) := by
  refine (env_agrees_with_file scalarExternals sampleShape "my_module" [] ?_ ?_ sampleAssignment ?_
    sampleFileApp sampleEnvApp rfl sampleFileApp_holds (fun _ => rfl) (fun _ _ => rfl)
    sampleEnvApp_holds _).mp rfl
  · intro hne
    exact absurd rfl hne
  · decide
  · intro leaf hleaf scalar hscalar
    rcases List.mem_cons.mp hleaf with rfl | hleaf
    · cases hscalar
      exact ⟨false, 16, rfl, by decide⟩
    · rw [List.mem_singleton.mp hleaf] at hscalar ⊢
      cases hscalar
      exact ⟨true, 64, rfl, by decide⟩

end QuizArena.Config
