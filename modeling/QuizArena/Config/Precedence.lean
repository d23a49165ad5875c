import QuizArena.Config.Resolve

/-!
# Layer precedence

The tree a resolution leaves, described by the four layers: at a leaf stands the
parse of its derived variable if that is set, else that of the last of its
aliases that is set, else what the merged file tree has there. Everything that
is not on the way to a leaf some variable set, nor below one, is kept.
-/

namespace QuizArena.Config

open Lib

variable {L : Type}

/-- A type that can be a section: a struct with named fields, no two of one name
    in any struct it nests. -/
structure StructShape (L : Type) where
  shape : Shape L
  isStruct : shape.namedFields.isSome
  distinct : shape.DistinctNames

/-! ## Dotted paths -/

/-- Segments without dots can be read off the dotted path. -/
theorem intercalate_dot_injective {path path' : List String} (hne : path ≠ []) (hne' : path' ≠ [])
    (hdots : ∀ segment ∈ path, '.' ∉ segment.toList)
    (hdots' : ∀ segment ∈ path', '.' ∉ segment.toList)
    (h : ".".intercalate path = ".".intercalate path') : path = path' := by
  have hchars := congrArg String.toList h
  rw [String.toList_intercalate, String.toList_intercalate] at hchars
  have hdot : (".".toList : List Char) = ['.'] := by decide
  have hsplit : ∀ p : List String, p ≠ [] → (∀ segment ∈ p, '.' ∉ segment.toList) →
      (['.'].intercalate (p.map String.toList)).splitOn '.' = p.map String.toList := by
    intro p hp hd
    apply List.splitOn_intercalate
    · intro l hl
      obtain ⟨segment, hsegment, rfl⟩ := List.mem_map.mp hl
      exact hd segment hsegment
    · simpa using hp
  rw [hdot] at hchars
  have hmaps : path.map String.toList = path'.map String.toList := by
    rw [← hsplit path hne hdots, ← hsplit path' hne' hdots', hchars]
  exact List.map_injective_iff.mpr (fun a b hab => String.toList_inj.mp hab) hmaps

theorem Shape.dotFree_of_leaf {shape : Shape L} (h : shape.DotFreeNames) {leaf : Leaf}
    (hleaf : leaf ∈ shape.leaves) : ∀ segment ∈ leaf.path, '.' ∉ segment.toList := by
  induction shape generalizing leaf with
  | struct denyUnknown fields ih =>
    cases h with
    | struct hnames hfields =>
    obtain ⟨field, hfield, inner, hinner, rfl⟩ := Shape.mem_leaves_struct.mp hleaf
    intro segment hsegment
    rcases List.mem_cons.mp hsegment with rfl | hsegment
    · exact hnames field hfield
    · exact ih field hfield (hfields field hfield) hinner segment hsegment
  | option inner ih =>
    cases h with
    | option hinner => exact ih hinner hleaf
  | scalar s => revert hleaf; cases s <;> simp +contextual [Shape.leaves, collectLeaves]
  | map value => simp [Shape.leaves, collectLeaves] at hleaf
  | sequence kind item | other =>
    simp only [Shape.leaves, collectLeaves, List.mem_singleton] at hleaf
    subst hleaf
    simp

/-- Two different leaves of a section are incomparable. -/
theorem StructShape.incomparable (T : StructShape L) {leaf leaf' : Leaf}
    (hleaf : leaf ∈ T.shape.leaves) (hleaf' : leaf' ∈ T.shape.leaves) (hne : leaf ≠ leaf') :
    KeyedTree.Incomparable leaf.path leaf'.path := by
  have : Std.Symm fun l l' : Leaf => KeyedTree.Incomparable l.path l'.path :=
    ⟨fun _ _ h => h.symm⟩
  exact (Shape.pairwise_leaves T.distinct).forall hleaf hleaf' hne

theorem StructShape.leaf_eq (T : StructShape L) {leaf leaf' : Leaf}
    (hleaf : leaf ∈ T.shape.leaves) (hleaf' : leaf' ∈ T.shape.leaves)
    (h : leaf.path = leaf'.path) : leaf = leaf' := by
  by_contra hne
  have hinc := T.incomparable hleaf hleaf' hne
  rw [h] at hinc
  exact hinc.1 (List.prefix_refl _)

theorem StructShape.path_ne_nil (T : StructShape L) {leaf : Leaf} (h : leaf ∈ T.shape.leaves) :
    leaf.path ≠ [] := by
  obtain ⟨fields, hfields⟩ := Option.isSome_iff_exists.mp T.isStruct
  exact Shape.path_ne_nil hfields h

/-- Exactly one leaf lies at the path of a leaf. -/
theorem StructShape.filter_leaves (T : StructShape L) {leaf : Leaf}
    (h : leaf ∈ T.shape.leaves) :
    (T.shape.leaves.filter fun l => l.path = leaf.path) = [leaf] := by
  have hpairs := Shape.pairwise_leaves T.distinct
  revert hpairs
  have hall : ∀ l ∈ T.shape.leaves, l.path = leaf.path → l = leaf :=
    fun l hl heq => T.leaf_eq hl h heq
  revert hall h
  generalize T.shape.leaves = leaves
  intro h hall hpairs
  induction leaves with
  | nil => cases h
  | cons l leaves ih =>
    obtain ⟨hhead, htail⟩ := List.pairwise_cons.mp hpairs
    by_cases heq : l.path = leaf.path
    · have hl : l = leaf := hall l (by simp) heq
      subst hl
      rw [List.filter_cons_of_pos (by simp)]
      refine congrArg (l :: ·) (List.filter_eq_nil_iff.mpr fun l' hl' hpath => ?_)
      have hinc := hhead l' hl'
      rw [of_decide_eq_true hpath] at hinc
      exact hinc.1 (List.prefix_refl _)
    · rw [List.filter_cons_of_neg (by simpa using heq)]
      have hmem : leaf ∈ leaves := by
        rcases List.mem_cons.mp h with rfl | hmem
        · exact absurd rfl heq
        · exact hmem
      exact ih hmem (fun l' hl' => hall l' (by simp [hl'])) htail

/-- The alias for a dotted path targets the leaf there. -/
theorem StructShape.aliasLeaf_eq_some_iff (T : StructShape L) (hdots : T.shape.DotFreeNames)
    {field : String} {leaf : Leaf} :
    AppConfig.aliasLeaf T.shape.leaves field = some leaf ↔
      leaf ∈ T.shape.leaves ∧ ".".intercalate leaf.path = field := by
  constructor
  · intro h
    exact ⟨AppConfig.aliasLeaf_mem h, AppConfig.aliasLeaf_path h⟩
  · rintro ⟨hleaf, rfl⟩
    cases h : AppConfig.aliasLeaf T.shape.leaves (".".intercalate leaf.path) with
    | none =>
      have := List.find?_eq_none.mp h leaf hleaf
      simp at this
    | some leaf' =>
      have hleaf' := AppConfig.aliasLeaf_mem h
      have hjoin := AppConfig.aliasLeaf_path h
      have hpath := intercalate_dot_injective (T.path_ne_nil hleaf') (T.path_ne_nil hleaf)
        (Shape.dotFree_of_leaf hdots hleaf') (Shape.dotFree_of_leaf hdots hleaf) hjoin
      rw [T.leaf_eq hleaf' hleaf hpath]

/-! ## The four layers -/

namespace AppConfig

/-- What the merged file layers have for the section, an absent one being an
    empty table. -/
def fileTree (app : AppConfig) (name : String) : Value :=
  match app.tree name with
  | .ok value => toFacetValue value
  | .error _ => .ofObject VObject.new

/-- The parse of a variable for a leaf, when the variable is set. -/
def varValue (deps : Externals L) (app : AppConfig) (var : String) (leaf : Leaf) : Option Value :=
  (app.env var).bind fun raw => raw.toStr.bind fun text =>
    (parseEnvValue deps text leaf.kind).toOption

/-- The value of the last alias in the list that targets the leaf and is set. -/
def aliasValue (deps : Externals L) (app : AppConfig) (aliases : List (String × String))
    (leaf : Leaf) : Option Value :=
  ((aliases.filter fun entry => entry.1 = ".".intercalate leaf.path).filterMap
    fun entry => varValue deps app entry.2 leaf).getLast?

/-- The value of a leaf by the four layers, highest precedence first. -/
def layeredValue (deps : Externals L) (app : AppConfig) (name : String)
    (aliases : List (String × String)) (leaf : Leaf) : Option Value :=
  ((varValue deps app (envVarName deps.tables name leaf.path) leaf).or
    (aliasValue deps app aliases leaf)).or ((app.fileTree name).readPath leaf.path)

/-- A name of a leaf: the derived one, or that of an alias that targets it. -/
def NameOf (tables : UnicodeTables) (name : String) (aliases : List (String × String))
    (var : String) (leaf : Leaf) : Prop :=
  var = envVarName tables name leaf.path ∨ (".".intercalate leaf.path, var) ∈ aliases

/-- Some variable sets the leaf. -/
def SetsLeaf (tables : UnicodeTables) (app : AppConfig) (name : String)
    (aliases : List (String × String)) (leaf : Leaf) : Prop :=
  ∃ var, NameOf tables name aliases var leaf ∧ app.env var ≠ none

/-- The section is there and is no table. -/
def NotTable (app : AppConfig) (name : String) : Prop :=
  ∃ value, app.tree name = .ok value ∧ value.isTable = false

/-- An alias targets a field that is no leaf. -/
def UnknownAlias (leaves : List Leaf) (aliases : List (String × String)) : Prop :=
  ∃ entry ∈ aliases, ∀ leaf ∈ leaves, ".".intercalate leaf.path ≠ entry.1

/-- A variable of a leaf is set to something that is not Unicode or does not parse
    as the leaf's kind. -/
def UnreadableVar (deps : Externals L) (app : AppConfig) (name : String) (leaves : List Leaf)
    (aliases : List (String × String)) : Prop :=
  ∃ leaf ∈ leaves, ∃ var, NameOf deps.tables name aliases var leaf ∧
    app.env var ≠ none ∧ varValue deps app var leaf = none

/-- A variable of a leaf is claimed for another target, or is the variable of two
    leaves. -/
def SharedName (deps : Externals L) (app : AppConfig) (name : String) (leaves : List Leaf)
    (aliases : List (String × String)) : Prop :=
  ∃ leaf ∈ leaves, ∃ var, NameOf deps.tables name aliases var leaf ∧
    ((∃ existing, app.claimed var = some existing ∧ existing ≠ claimTarget name leaf.path) ∨
      ∃ leaf' ∈ leaves, NameOf deps.tables name aliases var leaf' ∧ leaf'.path ≠ leaf.path)

theorem readVar_eq_varValue {deps : Externals L} {app : AppConfig} {source : Source}
    {value? : Option Value} (h : readVar deps app.env source = .ok value?) :
    value? = varValue deps app source.1 source.2 := by
  unfold readVar at h
  unfold varValue
  cases henv : app.env source.1 with
  | none =>
    rw [henv] at h
    cases h
    rfl
  | some raw =>
    rw [henv] at h
    simp only at h
    rw [Option.bind_some]
    cases htext : raw.toStr with
    | none => rw [htext] at h; cases h
    | some text =>
      rw [htext] at h
      simp only at h
      rw [Option.bind_some]
      cases hparse : parseEnvValue deps text source.2.kind with
      | error expected => rw [hparse] at h; cases h
      | ok value =>
        rw [hparse] at h
        cases h
        rfl

/-- Reading a variable fails exactly when it is set and yields nothing. -/
theorem readVar_ok_iff {deps : Externals L} {app : AppConfig} {source : Source} :
    (∃ value?, readVar deps app.env source = .ok value?) ↔
      ¬ (app.env source.1 ≠ none ∧ varValue deps app source.1 source.2 = none) := by
  unfold readVar varValue
  cases app.env source.1 with
  | none => simp
  | some raw =>
    cases htext : raw.toStr with
    | none => simp [htext]
    | some text =>
      cases hparse : parseEnvValue deps text source.2.kind <;>
        simp [Except.toOption, htext, hparse]

theorem sectionTree_eq_fileTree {app : AppConfig} {name : String} {tree : Value}
    (h : app.sectionTree name = .ok tree) : tree = app.fileTree name := by
  unfold sectionTree at h
  unfold fileTree
  split at h
  · rename_i value hvalue
    split at h
    · cases h
      rw [hvalue]
    · cases h
  · rename_i hvalue
    cases h
    rw [hvalue]
  · cases h

/-- The value of a variable is neither a table nor null. -/
theorem parseEnvValue_plain {deps : Externals L} {raw : String} {kind : LeafKind}
    {value : Value} (h : parseEnvValue deps raw kind = .ok value) :
    value.isObject = false ∧ value ≠ .null := by
  have hparse : ∀ {N : Type} (parsed : Option N) (into : N → Value) (expected : String),
      (∀ n, (into n).isObject = false ∧ into n ≠ .null) →
      parseOr parsed into expected = .ok value → value.isObject = false ∧ value ≠ .null := by
    intro N parsed into expected hinto hok
    cases parsed with
    | none => cases hok
    | some n =>
      cases hok
      exact hinto n
  cases kind with
  | scalar s =>
    cases s <;> first
      | (refine hparse _ _ _ ?_ h; exact fun _ => ⟨rfl, nofun⟩)
      | (cases h; exact ⟨rfl, nofun⟩)
  | list =>
    simp only [parseEnvValue] at h
    split at h
    · cases h
      exact ⟨rfl, nofun⟩
    · cases h
  | text =>
    cases h
    exact ⟨rfl, nofun⟩

/-- The sources of the aliases when all of them target a leaf. -/
theorem aliasSources_eq {name : String} {leaves : List Leaf} {aliases : List (String × String)}
    (h : (aliasSources name leaves aliases).2 = none) :
    (aliasSources name leaves aliases).1 = aliases.filterMap fun entry =>
      (aliasLeaf leaves entry.1).map fun leaf => (entry.2, leaf) := by
  induction aliases with
  | nil => rfl
  | cons entry aliases ih =>
    obtain ⟨field, var⟩ := entry
    unfold aliasSources at h ⊢
    cases hleaf : aliasLeaf leaves field with
    | none =>
      rw [hleaf] at h
      cases h
    | some leaf =>
      rw [hleaf] at h
      simp [hleaf, ih h]

/-- Every alias targets a leaf, or one of them does not. -/
theorem aliasSources_known_iff {name : String} {leaves : List Leaf}
    {aliases : List (String × String)} :
    (aliasSources name leaves aliases).2 = none ↔ ¬ UnknownAlias leaves aliases := by
  have hleaf : ∀ field, aliasLeaf leaves field = none ↔
      ∀ leaf ∈ leaves, ".".intercalate leaf.path ≠ field := by
    intro field
    unfold aliasLeaf
    rw [List.find?_eq_none]
    simp
  induction aliases with
  | nil => simp [aliasSources, UnknownAlias]
  | cons entry aliases ih =>
    obtain ⟨field, var⟩ := entry
    unfold aliasSources
    cases h : aliasLeaf leaves field with
    | none =>
      have hunknown : UnknownAlias leaves ((field, var) :: aliases) :=
        ⟨(field, var), by simp, (hleaf field).mp h⟩
      simp [hunknown]
    | some leaf =>
      simp only [ih]
      have hne : ¬ ∀ leaf ∈ leaves, ".".intercalate leaf.path ≠ field := by
        intro hall
        rw [(hleaf field).mpr hall] at h
        cases h
      constructor
      · rintro hknown ⟨entry, hentry, hall⟩
        rcases List.mem_cons.mp hentry with rfl | hentry
        · exact hne hall
        · exact hknown ⟨entry, hentry, hall⟩
      · rintro hknown ⟨entry, hentry, hall⟩
        exact hknown ⟨entry, List.mem_cons_of_mem _ hentry, hall⟩

/-- With every alias known, the sources are the names of the leaves. -/
theorem mem_sources_iff {tables : UnicodeTables} {name : String} {T : StructShape L}
    (hdots : T.shape.DotFreeNames) {aliases : List (String × String)}
    (hknown : (aliasSources name T.shape.leaves aliases).2 = none) {source : Source} :
    source ∈ sources tables name T.shape.leaves aliases ↔
      source.2 ∈ T.shape.leaves ∧ NameOf tables name aliases source.1 source.2 := by
  obtain ⟨var, leaf⟩ := source
  simp only [sources, List.mem_append, aliasSources_eq hknown, List.mem_filterMap,
    Option.map_eq_some_iff, Prod.mk.injEq, derivedSources, List.mem_map, NameOf]
  constructor
  · rintro (⟨entry, hentry, leaf', hleaf', rfl, rfl⟩ | ⟨leaf', hleaf', rfl, rfl⟩)
    · obtain ⟨hmem, hjoin⟩ := (T.aliasLeaf_eq_some_iff hdots).mp hleaf'
      exact ⟨hmem, Or.inr (by rw [hjoin]; exact hentry)⟩
    · exact ⟨hleaf', Or.inl rfl⟩
  · rintro ⟨hmem, rfl | hentry⟩
    · exact Or.inr ⟨leaf, hmem, rfl, rfl⟩
    · exact Or.inl ⟨_, hentry, leaf, (T.aliasLeaf_eq_some_iff hdots).mpr ⟨hmem, rfl⟩, rfl, rfl⟩

/-- The writes are the values of the sources that have one. -/
theorem writes_eq (deps : Externals L) (app : AppConfig) (sources : List Source) :
    writes deps app.env sources = sources.filterMap fun source =>
      (varValue deps app source.1 source.2).map fun value => (source.2.path, value) := by
  unfold writes
  congr 1
  funext source
  cases hread : readVar deps app.env source with
  | error error =>
    have : ¬ ∃ value?, readVar deps app.env source = .ok value? := by
      rintro ⟨_, h⟩
      rw [hread] at h
      cases h
    rw [readVar_ok_iff, not_not] at this
    rw [this.2]
    rfl
  | ok value? =>
    rw [← readVar_eq_varValue hread]
    cases value? <;> rfl

theorem writes_filter (deps : Externals L) (app : AppConfig) (sources : List Source)
    (path : List String) :
    ((writes deps app.env sources).filter fun w => w.1 = path).map Prod.snd =
      (sources.filter fun source => source.2.path = path).filterMap fun source =>
        varValue deps app source.1 source.2 := by
  rw [writes_eq]
  induction sources with
  | nil => rfl
  | cons source sources ih =>
    by_cases hpath : source.2.path = path
    · cases hvalue : varValue deps app source.1 source.2 with
      | none => simpa [List.filter_cons, hpath, hvalue] using ih
      | some value => simpa [List.filter_cons, hpath, hvalue] using ih
    · cases hvalue : varValue deps app source.1 source.2 with
      | none => simpa [List.filter_cons, hpath, hvalue] using ih
      | some value => simpa [List.filter_cons, hpath, hvalue] using ih

/-- The values of the aliases that target a leaf. -/
theorem aliasSources_filter {deps : Externals L} {app : AppConfig} {name : String}
    {T : StructShape L} (hdots : T.shape.DotFreeNames) {aliases : List (String × String)}
    (hknown : (aliasSources name T.shape.leaves aliases).2 = none) {leaf : Leaf}
    (hleaf : leaf ∈ T.shape.leaves) :
    ((aliasSources name T.shape.leaves aliases).1.filter fun source =>
        source.2.path = leaf.path).filterMap (fun source =>
          varValue deps app source.1 source.2) =
      (aliases.filter fun entry => entry.1 = ".".intercalate leaf.path).filterMap fun entry =>
        varValue deps app entry.2 leaf := by
  rw [aliasSources_eq hknown]
  clear hknown
  induction aliases with
  | nil => rfl
  | cons entry aliases ih =>
    obtain ⟨field, var⟩ := entry
    by_cases hfield : field = ".".intercalate leaf.path
    · have htarget := (T.aliasLeaf_eq_some_iff hdots).mpr ⟨hleaf, hfield.symm⟩
      rw [List.filterMap_cons_some (b := (var, leaf)) (by simp [htarget]),
        List.filter_cons_of_pos (by simp), List.filter_cons_of_pos (by simpa using hfield),
        List.filterMap_cons, List.filterMap_cons, ih]
    · rw [List.filter_cons_of_neg (by simpa using hfield), ← ih]
      cases htarget : aliasLeaf T.shape.leaves field with
      | none => rw [List.filterMap_cons_none (by simp [htarget])]
      | some leaf' =>
        have hne : ¬ leaf'.path = leaf.path := by
          intro hpath
          obtain ⟨_, hjoin⟩ := (T.aliasLeaf_eq_some_iff hdots).mp htarget
          exact hfield (by rw [← hjoin, hpath])
        rw [List.filterMap_cons_some (b := (var, leaf')) (by simp [htarget]),
          List.filter_cons_of_neg (by simpa using hne)]

/-- At a leaf stands the value of its derived variable, else of the last source of an
    alias that targets it, else what the file has. -/
theorem readPath_resolved {deps : Externals L} {app : AppConfig} {name : String}
    {T : StructShape L} {aliases : List (String × String)} {tree : Value} {applied : List String}
    (h : resolveValue deps app name T.shape aliases = .ok (tree, applied)) {leaf : Leaf}
    (hleaf : leaf ∈ T.shape.leaves) :
    tree.readPath leaf.path =
      ((varValue deps app (envVarName deps.tables name leaf.path) leaf).or
        (((aliasSources name T.shape.leaves aliases).1.filter fun source =>
          source.2.path = leaf.path).filterMap fun source =>
            varValue deps app source.1 source.2).getLast?).or
        ((app.fileTree name).readPath leaf.path) := by
  obtain ⟨base, hbase, hknown, rfl, _⟩ := resolveValue_ok h
  have hpaths : ∀ w ∈ writes deps app.env (sources deps.tables name T.shape.leaves aliases),
      w.1 = leaf.path ∨ KeyedTree.Incomparable w.1 leaf.path := by
    intro w hw
    rw [writes_eq] at hw
    obtain ⟨source, hsource, hw⟩ := List.mem_filterMap.mp hw
    obtain ⟨value, _, rfl⟩ := Option.map_eq_some_iff.mp hw
    by_cases heq : source.2 = leaf
    · exact Or.inl (by rw [heq])
    · exact Or.inr (T.incomparable (mem_leaves_of_sources hsource) hleaf heq)
  have hderived : ((derivedSources deps.tables name T.shape.leaves).filter fun source =>
      source.2.path = leaf.path) = [(envVarName deps.tables name leaf.path, leaf)] := by
    rw [derivedSources, List.filter_map]
    have hcomp : ((fun source : Source => decide (source.2.path = leaf.path)) ∘
        fun leaf => (envVarName deps.tables name leaf.path, leaf)) =
        fun l : Leaf => decide (l.path = leaf.path) := rfl
    rw [hcomp, T.filter_leaves hleaf]
    rfl
  rw [Value.readPath, KeyedTree.readPath_writeAll _ hpaths, ← List.getLast?_map, writes_filter,
    sources, List.filter_append, List.filterMap_append, hderived, List.getLast?_append,
    ← sectionTree_eq_fileTree hbase]
  congr 2
  cases hvalue : varValue deps app (envVarName deps.tables name leaf.path) leaf with
  | none => simp [hvalue]
  | some value => simp [hvalue]

/-- At a leaf stands the value of the highest layer that has one. -/
theorem readPath_resolved_leaf {deps : Externals L} {app : AppConfig} {name : String}
    {T : StructShape L} (hdots : T.shape.DotFreeNames) {aliases : List (String × String)}
    {tree : Value} {applied : List String}
    (h : resolveValue deps app name T.shape aliases = .ok (tree, applied)) {leaf : Leaf}
    (hleaf : leaf ∈ T.shape.leaves) :
    tree.readPath leaf.path = layeredValue deps app name aliases leaf := by
  obtain ⟨_, _, hknown, _, _⟩ := resolveValue_ok h
  rw [readPath_resolved h hleaf, aliasSources_filter hdots hknown hleaf, layeredValue, aliasValue]

/-- What is written is a leaf some variable sets, at its path, and no table. -/
theorem mem_writes {deps : Externals L} {app : AppConfig} {name : String} {T : StructShape L}
    (hdots : T.shape.DotFreeNames) {aliases : List (String × String)}
    (hknown : (aliasSources name T.shape.leaves aliases).2 = none) {w : List String × Value}
    (hw : w ∈ writes deps app.env (sources deps.tables name T.shape.leaves aliases)) :
    ∃ leaf ∈ T.shape.leaves, w.1 = leaf.path ∧ w.2.isObject = false ∧
      SetsLeaf deps.tables app name aliases leaf := by
  rw [writes_eq] at hw
  obtain ⟨source, hsource, hw⟩ := List.mem_filterMap.mp hw
  obtain ⟨value, hvalue, rfl⟩ := Option.map_eq_some_iff.mp hw
  obtain ⟨hleaf, hname⟩ := (mem_sources_iff hdots hknown).mp hsource
  refine ⟨source.2, hleaf, rfl, ?_, source.1, hname, ?_⟩
  · unfold varValue at hvalue
    obtain ⟨raw, _, hvalue⟩ := Option.bind_eq_some_iff.mp hvalue
    obtain ⟨text, _, hvalue⟩ := Option.bind_eq_some_iff.mp hvalue
    cases hparse : parseEnvValue deps text source.2.kind with
    | error expected => rw [hparse] at hvalue; cases hvalue
    | ok value' =>
      rw [hparse] at hvalue
      cases hvalue
      exact (parseEnvValue_plain hparse).1
  · intro hnone
    rw [varValue, hnone] at hvalue
    cases hvalue

theorem readPath_cons_of_not_object {value : Value} (h : value.isObject = false) (key : String)
    (path : List String) : value.readPath (key :: path) = none := by
  have hleaf : ¬ KeyedTree.IsTable value := fun htable => by
    have htrue : value.isObject = true := htable
    rw [h] at htrue
    cases htrue
  rw [Value.readPath, KeyedTree.readPath_cons, KeyedTree.child_leaf key hleaf]
  rfl

/-- A path that appears with the resolution follows field names. -/
theorem hasFieldPath_of_resolved {deps : Externals L} {app : AppConfig} {name : String}
    {T : StructShape L} (hdots : T.shape.DotFreeNames) {aliases : List (String × String)}
    {tree : Value} {applied : List String}
    (h : resolveValue deps app name T.shape aliases = .ok (tree, applied)) {path : List String}
    (hnew : tree.readPath path ≠ none) (hold : (app.fileTree name).readPath path = none) :
    T.shape.HasFieldPath path := by
  obtain ⟨base, hbase, hknown, rfl, _⟩ := resolveValue_ok h
  rw [← sectionTree_eq_fileTree hbase] at hold
  obtain ⟨w, hw, hpath⟩ := KeyedTree.prefix_of_readPath_writeAll hnew hold
  obtain ⟨leaf, hleaf, hwpath, hobject, _⟩ := mem_writes hdots hknown hw
  rw [hwpath] at hpath
  rcases hpath with hbefore | ⟨rest, rfl, hrest⟩
  · exact Shape.hasFieldPath_of_leaf hleaf hbefore
  · cases rest with
    | nil =>
      rw [List.append_nil]
      exact Shape.hasFieldPath_of_leaf hleaf (List.prefix_refl _)
    | cons key rest => exact absurd (readPath_cons_of_not_object hobject key rest) hrest

/-- What is incomparable to every leaf some variable sets is kept. -/
theorem readPath_resolved_of_incomparable {deps : Externals L} {app : AppConfig} {name : String}
    {T : StructShape L} (hdots : T.shape.DotFreeNames) {aliases : List (String × String)}
    {tree : Value} {applied : List String}
    (h : resolveValue deps app name T.shape aliases = .ok (tree, applied)) {path : List String}
    (hpath : ∀ leaf ∈ T.shape.leaves, SetsLeaf deps.tables app name aliases leaf →
      KeyedTree.Incomparable leaf.path path) :
    tree.readPath path = (app.fileTree name).readPath path := by
  obtain ⟨base, hbase, hknown, rfl, _⟩ := resolveValue_ok h
  rw [← sectionTree_eq_fileTree hbase]
  apply KeyedTree.readPath_writeAll_of_incomparable
  intro w hw
  obtain ⟨leaf, hleaf, hwpath, _, hset⟩ := mem_writes hdots hknown hw
  rw [hwpath]
  exact hpath leaf hleaf hset

/-! ## When the resolution fails -/

/-- Two leaves of a section have one target only when they are one. -/
theorem claimTarget_injective {T : StructShape L} (hdots : T.shape.DotFreeNames) {name : String}
    {leaf leaf' : Leaf} (hleaf : leaf ∈ T.shape.leaves) (hleaf' : leaf' ∈ T.shape.leaves)
    (h : claimTarget name leaf.path = claimTarget name leaf'.path) : leaf.path = leaf'.path := by
  have hne := T.path_ne_nil hleaf
  have hne' := T.path_ne_nil hleaf'
  have hempty : leaf.path.isEmpty = false := by simpa using hne
  have hempty' : leaf'.path.isEmpty = false := by simpa using hne'
  simp only [claimTarget, hempty, hempty', Bool.false_eq_true, if_false] at h
  have hjoin : ".".intercalate leaf.path = ".".intercalate leaf'.path := by
    have hchars := congrArg String.toList h
    simp only [String.toList_append] at hchars
    exact String.toList_inj.mp (List.append_cancel_left hchars)
  exact intercalate_dot_injective hne hne' (Shape.dotFree_of_leaf hdots hleaf)
    (Shape.dotFree_of_leaf hdots hleaf') hjoin

theorem clash_iff {deps : Externals L} {app : AppConfig} {name : String} {T : StructShape L}
    (hdots : T.shape.DotFreeNames) {aliases : List (String × String)}
    (hknown : (aliasSources name T.shape.leaves aliases).2 = none) :
    Clash app.claimed (claims deps.tables name T.shape.leaves aliases) ↔
      SharedName deps app name T.shape.leaves aliases := by
  have hclaims : ∀ var target, (var, target) ∈ claims deps.tables name T.shape.leaves aliases ↔
      ∃ leaf ∈ T.shape.leaves, NameOf deps.tables name aliases var leaf ∧
        claimTarget name leaf.path = target := by
    intro var target
    simp only [claims, List.mem_map, claimOf, Prod.mk.injEq, Prod.exists,
      mem_sources_iff hdots hknown]
    constructor
    · rintro ⟨var', leaf, ⟨hleaf, hname⟩, rfl, rfl⟩
      exact ⟨leaf, hleaf, hname, rfl⟩
    · rintro ⟨leaf, hleaf, hname, rfl⟩
      exact ⟨var, leaf, ⟨hleaf, hname⟩, rfl, rfl⟩
  constructor
  · rintro ⟨var, target, existing, hmem, hne, hex⟩
    obtain ⟨leaf, hleaf, hname, rfl⟩ := (hclaims var target).mp hmem
    refine ⟨leaf, hleaf, var, hname, ?_⟩
    rcases hex with hex | hex
    · exact Or.inl ⟨existing, hex, hne⟩
    · obtain ⟨leaf', hleaf', hname', rfl⟩ := (hclaims var existing).mp hex
      exact Or.inr ⟨leaf', hleaf', hname', fun hpath => hne (by rw [hpath])⟩
  · rintro ⟨leaf, hleaf, var, hname, hex⟩
    have hmem := (hclaims var _).mpr ⟨leaf, hleaf, hname, rfl⟩
    rcases hex with ⟨existing, hexisting, hne⟩ | ⟨leaf', hleaf', hname', hne⟩
    · exact ⟨var, _, existing, hmem, hne, Or.inl hexisting⟩
    · refine ⟨var, _, claimTarget name leaf'.path, hmem, ?_,
        Or.inr ((hclaims var _).mpr ⟨leaf', hleaf', hname', rfl⟩)⟩
      exact fun h => hne (claimTarget_injective hdots hleaf' hleaf h)

theorem reads_ok_iff {deps : Externals L} {app : AppConfig} {name : String} {T : StructShape L}
    (hdots : T.shape.DotFreeNames) {aliases : List (String × String)}
    (hknown : (aliasSources name T.shape.leaves aliases).2 = none) :
    (∀ source ∈ sources deps.tables name T.shape.leaves aliases,
      ∃ value?, readVar deps app.env source = .ok value?) ↔
      ¬ UnreadableVar deps app name T.shape.leaves aliases := by
  simp only [readVar_ok_iff, mem_sources_iff hdots hknown]
  constructor
  · rintro h ⟨leaf, hleaf, var, hname, hset, hvalue⟩
    exact h (var, leaf) ⟨hleaf, hname⟩ ⟨hset, hvalue⟩
  · rintro h ⟨var, leaf⟩ ⟨hleaf, hname⟩ ⟨hset, hvalue⟩
    exact h ⟨leaf, hleaf, var, hname, hset, hvalue⟩

theorem sectionTree_ok_iff {app : AppConfig} {name : String}
    (hlookup : ∀ message, app.tree name ≠ .error (.other message)) :
    (∃ tree, app.sectionTree name = .ok tree) ↔ ¬ NotTable app name := by
  unfold sectionTree NotTable
  cases h : app.tree name with
  | ok value => cases htable : value.isTable <;> simp [htable]
  | error error =>
    cases error with
    | notFound => simp
    | other message => exact absurd h (hlookup message)

/-- The resolution of a section the `config` crate can look up fails exactly for one
    of the four reasons. -/
theorem resolve_error_iff {deps : Externals L} {app : AppConfig} {name : String}
    {T : StructShape L} (hdots : T.shape.DotFreeNames) {aliases : List (String × String)}
    (hlookup : ∀ message, app.tree name ≠ .error (.other message)) :
    (∃ error, (app.resolve deps name T.shape aliases).1 = .error error) ↔
      NotTable app name ∨ UnknownAlias T.shape.leaves aliases ∨
        UnreadableVar deps app name T.shape.leaves aliases ∨
        SharedName deps app name T.shape.leaves aliases := by
  have hfails : (∃ error, (app.resolve deps name T.shape aliases).1 = .error error) ↔
      ¬ ∃ result, (app.resolve deps name T.shape aliases).1 = .ok result := by
    cases (app.resolve deps name T.shape aliases).1 <;> simp
  rw [hfails, resolve_ok_iff deps app name T.isStruct, sectionTree_ok_iff hlookup]
  by_cases hunknown : UnknownAlias T.shape.leaves aliases
  · have hknown : ¬ (aliasSources name T.shape.leaves aliases).2 = none := by
      rw [aliasSources_known_iff]
      exact not_not.mpr hunknown
    simp [hunknown, hknown]
  · have hknown : (aliasSources name T.shape.leaves aliases).2 = none :=
      aliasSources_known_iff.mpr hunknown
    rw [reads_ok_iff hdots hknown, clash_iff hdots hknown]
    simp only [hknown, hunknown, true_and, false_or]
    tauto

end AppConfig

open AppConfig in
/-- Layer precedence: what a resolution leaves at every leaf, what it keeps, what it
    brings into being, and exactly when it fails. -/
theorem resolve_layer_precedence (deps : Externals L) (app : AppConfig) (name : String)
    (T : StructShape L) (hdots : T.shape.DotFreeNames) (aliases : List (String × String)) :
    (∀ tree applied, (app.resolve deps name T.shape aliases).1 = .ok (tree, applied) →
      (∀ leaf ∈ T.shape.leaves,
        tree.readPath leaf.path = layeredValue deps app name aliases leaf) ∧
      (∀ path, (∀ leaf ∈ T.shape.leaves, SetsLeaf deps.tables app name aliases leaf →
          ¬ path <+: leaf.path ∧ ¬ leaf.path <+: path) →
        tree.readPath path = (app.fileTree name).readPath path) ∧
      (∀ path, tree.readPath path ≠ none → (app.fileTree name).readPath path = none →
        T.shape.HasFieldPath path)) ∧
    ((∀ message, app.tree name ≠ .error (.other message)) →
      ((∃ error, (app.resolve deps name T.shape aliases).1 = .error error) ↔
        NotTable app name ∨ UnknownAlias T.shape.leaves aliases ∨
          UnreadableVar deps app name T.shape.leaves aliases ∨
          SharedName deps app name T.shape.leaves aliases)) := by
  refine ⟨?_, fun hlookup => resolve_error_iff hdots hlookup⟩
  intro tree applied hok
  have hvalue := resolveValue_of_resolve_ok T.isStruct hok
  refine ⟨?_, ?_, ?_⟩
  · intro leaf hleaf
    exact readPath_resolved_leaf hdots hvalue hleaf
  · intro path hpath
    apply readPath_resolved_of_incomparable hdots hvalue
    intro leaf hleaf hset
    exact ⟨(hpath leaf hleaf hset).2, (hpath leaf hleaf hset).1⟩
  · intro path hnew hold
    exact hasFieldPath_of_resolved hdots hvalue hnew hold

/-- A section with a port and a nested table of retries, like the one the source
    tests with. -/
def sampleShape {L : Type} : StructShape L where
  shape := .struct true [⟨"port", .scalar .u16, none, none⟩,
    ⟨"retry", .struct true [⟨"max_attempts", .scalar .i64, none, none⟩], none, none⟩]
  isStruct := rfl
  distinct := by
    refine .struct (by simp) ?_
    simp only [List.forall_mem_cons, List.not_mem_nil, false_implies, implies_true, and_true]
    refine ⟨.scalar, .struct (List.nodup_singleton _) ?_⟩
    simp only [List.forall_mem_cons, List.not_mem_nil, false_implies, implies_true, and_true]
    exact .scalar

theorem sampleShape_dotFree : (sampleShape (L := L)).shape.DotFreeNames := by
  refine .struct ?_ ?_
  · simp only [List.forall_mem_cons, List.not_mem_nil, false_implies, implies_true, and_true]
    decide
  · simp only [List.forall_mem_cons, List.not_mem_nil, false_implies, implies_true, and_true]
    refine ⟨.scalar, .struct ?_ ?_⟩
    · simp only [List.forall_mem_cons, List.not_mem_nil, false_implies, implies_true, and_true]
      decide
    · simp only [List.forall_mem_cons, List.not_mem_nil, false_implies, implies_true, and_true]
      exact .scalar

/-- ASCII tables, and parsers and a deserializer that refuse everything. -/
def sampleExternals : Externals Unit where
  tables := .ascii
  parseF64 _ := none
  parseJson _ := none
  fromValue _ _ := .error "refused"

/-- A file with a port and a key no field has, under an environment that sets the
    port and an alias of the attempts. -/
def sampleApp : AppConfig :=
  .new (fun _ => .ok (.table {"port", "typo"} fun key =>
      if key = "port" then .i64 9000 else .boolean true))
    fun var =>
      if var = "QUIZ_ARENA_MY_MODULE_PORT" then some (.unicode "8081")
      else if var = "STD_MAX_ATTEMPTS" then some (.unicode "7")
      else none

theorem resolve_layer_precedence_sample :
    ∃ tree applied, (sampleApp.resolve sampleExternals "my_module" sampleShape.shape
        [("retry.max_attempts", "STD_MAX_ATTEMPTS")]).1 = .ok (tree, applied) ∧
      tree.readPath ["port"] = some (.int 8081) ∧
      tree.readPath ["retry", "max_attempts"] = some (.int 7) ∧
      tree.readPath ["typo"] = some (.bool true) := by
  refine ⟨_, _, rfl, ?_⟩
  obtain ⟨hleaves, hkept, _⟩ := (resolve_layer_precedence sampleExternals sampleApp "my_module"
    sampleShape sampleShape_dotFree [("retry.max_attempts", "STD_MAX_ATTEMPTS")]).1 _ _ rfl
  refine ⟨hleaves ⟨["port"], .scalar .u16⟩ (by decide),
    hleaves ⟨["retry", "max_attempts"], .scalar .i64⟩ (by decide), ?_⟩
  refine hkept ["typo"] fun leaf hleaf _ => ?_
  have : ∀ leaf ∈ (sampleShape (L := Unit)).shape.leaves,
      ¬ ["typo"] <+: leaf.path ∧ ¬ leaf.path <+: ["typo"] := by
    decide
  exact this leaf hleaf

end QuizArena.Config
