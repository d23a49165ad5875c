import QuizArena.Config.Precedence

/-!
# Overrides do not interfere

No leaf lies on the way to another one, so writes to leaves commute and leave everything
else as it was, also where the file has a scalar or a list in place of a nested table.
The root stays a table throughout, which keeps both `expect`s of `insert_at_path` from
being reached and the whole extraction from panicking. The two places that index a table
put a value under the key first.
-/

namespace QuizArena.Config

open Lib

variable {L : Type}

/-! ## The indexed tables -/

/-- `&mut table[key]`, after an empty table was put under the key unless the value there
    may stay. `none` stands for the panic of the index. -/
def indexAfter (stays : Value → Bool) (table : VObject) (key : String) : Option (VObject × Value) :=
  let table := if (table.get key).any stays then table
    else table.insert key (.ofObject VObject.new)
  (table.get key).map fun child => (table, child)

theorem insert_insert (table : VObject) (key : String) (value value' : Value) :
    (table.insert key value).insert key value' = table.insert key value' := by
  refine VObject.ext_get fun key' => ?_
  by_cases h : key' = key
  · subst h
    rw [VObject.get_insert_same, VObject.get_insert_same]
  · rw [VObject.get_insert_ne _ _ h, VObject.get_insert_ne _ _ h, VObject.get_insert_ne _ _ h]

/-- The index finds the value that may stay, or the empty table that was put there. -/
theorem indexAfter_eq (stays : Value → Bool) (table : VObject) (key : String) :
    ∃ table', indexAfter stays table key =
        some (table', ((table.get key).filter stays).getD (.ofObject VObject.new)) ∧
      ∀ child, table'.insert key child = table.insert key child := by
  unfold indexAfter
  cases hget : table.get key with
  | none =>
    refine ⟨table.insert key (.ofObject VObject.new), ?_, fun child => insert_insert _ _ _ _⟩
    simp
  | some child =>
    cases hstays : stays child with
    | true => exact ⟨table, by simp [Option.filter, hstays, hget], fun _ => rfl⟩
    | false =>
      refine ⟨table.insert key (.ofObject VObject.new), ?_, fun child => insert_insert _ _ _ _⟩
      simp [Option.filter, hstays]

/-- `insert_at_path` with its index; `none` stands for any of its panics. -/
def insertAtPathIndexed : Value → List String → Value → Option Value
  | _, [], value => some value
  | node, [last], value => node.asObject.map fun table => .ofObject (table.insert last value)
  | node, key :: path, value =>
    node.asObject.bind fun table =>
      (indexAfter Value.isObject table key).bind fun (table, child) =>
        (insertAtPathIndexed child path value).map fun child => .ofObject (table.insert key child)

mutual

/-- `add_missing_tables` with its index. -/
def addMissingTablesIndexed : Shape L → Value → Option Value
  | .struct _ fields, tree =>
    match tree.asObject with
    | some table => (addMissingFieldTablesIndexed fields table).map .ofObject
    | none => some tree
  | _, tree => some tree
termination_by structural shape => shape

/-- The loop of `add_missing_tables` over the fields of a struct, with its index. -/
def addMissingFieldTablesIndexed : List (Field L (Shape L)) → VObject → Option VObject
  | [], table => some table
  | ⟨key, shape, _, _⟩ :: fields, table =>
    if shape.namedFields.isNone then addMissingFieldTablesIndexed fields table
    else
      (indexAfter (fun _ => true) table key).bind fun (table, nested) =>
        (addMissingTablesIndexed shape nested).bind fun nested =>
          addMissingFieldTablesIndexed fields (table.insert key nested)
termination_by structural fields => fields

end

/-- The index of `insert_at_path` never panics. -/
theorem insertAtPathIndexed_eq (node : Value) (path : List String) (value : Value) :
    insertAtPathIndexed node path value = insertAtPath node path value := by
  induction path generalizing node with
  | nil => rfl
  | cons key path ih =>
    cases path with
    | nil => rfl
    | cons key' path =>
      rw [insertAtPathIndexed, insertAtPath]
      · congr 1
        funext table
        obtain ⟨table', hindex, hinsert⟩ := indexAfter_eq Value.isObject table key
        rw [hindex]
        simp only [Option.bind_some, hinsert, ih]
        congr 2
        cases table.get key with
        | none => rfl
        | some child => cases h : child.isObject <;> simp [Option.filter, h]
      · simp
      · simp

/-- The index of `add_missing_tables` never panics. -/
theorem addMissingTablesIndexed_eq (shape : Shape L) (tree : Value) :
    addMissingTablesIndexed shape tree = some (addMissingTables shape tree) := by
  induction shape generalizing tree with
  | struct denyUnknown fields ih =>
    have hfields : ∀ table, addMissingFieldTablesIndexed fields table =
        some (addMissingFieldTables fields table) := by
      induction fields with
      | nil => exact fun _ => rfl
      | cons field fields ihFields =>
        intro table
        obtain ⟨key, shape, default, typeDefault⟩ := field
        have hshape := ih ⟨key, shape, default, typeDefault⟩ List.mem_cons_self
        have hrest := ihFields fun field hfield => ih field (List.mem_cons_of_mem _ hfield)
        obtain ⟨table', hindex, hinsert⟩ := indexAfter_eq (fun _ => true) table key
        simp only [addMissingFieldTablesIndexed, addMissingFieldTables, hrest, hindex, hshape,
          Option.bind_some, hinsert]
        split
        · rfl
        · cases table.get key <;> simp [Option.filter]
    unfold addMissingTablesIndexed addMissingTables
    cases tree.asObject with
    | none => rfl
    | some table => simp only [hfields, Option.map_some]
  | option | sequence | map | scalar | other => rfl

/-! ## Overrides -/

/-- The overrides of a list, the first one first. -/
def insertAll : List (Leaf × Value) → Value → Option Value
  | [], tree => some tree
  | (leaf, value) :: overrides, tree =>
    (insertAtPath tree leaf.path value).bind (insertAll overrides)

/-- The override as a write of the keyed tree. -/
def overrideWrite (override : Leaf × Value) : List String × Value := (override.1.path, override.2)

theorem insertAll_eq {overrides : List (Leaf × Value)} (hpaths : ∀ o ∈ overrides, o.1.path ≠ [])
    {tree : Value} (htree : KeyedTree.IsTable tree) :
    insertAll overrides tree = some (KeyedTree.writeAll tree (overrides.map overrideWrite)) := by
  induction overrides generalizing tree with
  | nil => rfl
  | cons override overrides ih =>
    obtain ⟨leaf, value⟩ := override
    have hleaf : leaf.path ≠ [] := hpaths (leaf, value) List.mem_cons_self
    rw [insertAll, insertAtPath_eq htree, Option.bind_some,
      ih (fun o ho => hpaths o (List.mem_cons_of_mem _ ho)) (KeyedTree.isTable_writePath hleaf)]
    rfl

/-- Overrides of distinct leaves write to incomparable paths. -/
theorem StructShape.pairwise_overrides (T : StructShape L) {overrides : List (Leaf × Value)}
    (hleaves : ∀ o ∈ overrides, o.1 ∈ T.shape.leaves) (hnodup : (overrides.map Prod.fst).Nodup) :
    (overrides.map overrideWrite).Pairwise fun w w' => KeyedTree.Incomparable w.1 w'.1 := by
  rw [List.Nodup, List.pairwise_map] at hnodup
  rw [List.pairwise_map]
  refine hnodup.imp_of_mem fun {o o'} ho ho' hne => ?_
  exact T.incomparable (hleaves o ho) (hleaves o' ho') hne

theorem insertAll_perm (T : StructShape L) {tree : Value} (htree : KeyedTree.IsTable tree)
    {overrides overrides' : List (Leaf × Value)} (hperm : overrides.Perm overrides')
    (hleaves : ∀ o ∈ overrides, o.1 ∈ T.shape.leaves) (hnodup : (overrides.map Prod.fst).Nodup) :
    ∃ tree', insertAll overrides tree = some tree' ∧ insertAll overrides' tree = some tree' := by
  have hpaths : ∀ o ∈ overrides, o.1.path ≠ [] := fun o ho => T.path_ne_nil (hleaves o ho)
  have hpaths' : ∀ o ∈ overrides', o.1.path ≠ [] := fun o ho => hpaths o (hperm.mem_iff.mpr ho)
  have hwrites := KeyedTree.writeAll_perm tree (hperm.map overrideWrite)
    (T.pairwise_overrides hleaves hnodup)
  refine ⟨_, insertAll_eq hpaths htree, ?_⟩
  rw [insertAll_eq hpaths' htree, hwrites]

/-! ## No panic -/

namespace AppConfig

theorem resolve_ne_panicked (deps : Externals L) (app : AppConfig) (name : String)
    {shape : Shape L} (hshape : shape.namedFields.isSome) (aliases : List (String × String))
    (message : String) : (app.resolve deps name shape aliases).1 ≠ .error (.panicked message) := by
  intro h
  rcases (resolve_spec deps app name hshape aliases).value with hvalue | ⟨⟨_, _, _, hvalue⟩, _⟩
  · rw [h] at hvalue
    cases resolveValue_error hvalue.symm
  · rw [h] at hvalue
    cases hvalue

theorem sectionOf_ne_panicked (deps : Externals L) (app : AppConfig) (name : String)
    {shape : Shape L} (hshape : shape.namedFields.isSome) (aliases : List (String × String))
    (message : String) :
    (app.sectionOf deps name shape aliases).1 ≠ .error (.panicked message) := by
  have hresolve := resolve_ne_panicked deps app name hshape aliases message
  unfold sectionOf
  generalize app.resolve deps name shape aliases = out at hresolve ⊢
  obtain ⟨result, app'⟩ := out
  cases result with
  | error error =>
    simp only at hresolve ⊢
    exact fun h => hresolve (congrArg _ (Except.error.inj h))
  | ok pass =>
    obtain ⟨tree, applied⟩ := pass
    simp only
    cases missingRequiredField shape (addMissingTables shape tree) with
    | some field => simp
    | none => cases deps.fromValue shape (addMissingTables shape tree) <;> simp

end AppConfig

/-- The leaves of a section are incomparable; an override of one on a table panics at
    neither `expect`, is read back and leaves alone what is incomparable to it; overrides
    of distinct leaves come to the same in every order; and no extraction panics, neither
    at an `expect` nor at an index. -/
theorem overrides_do_not_interfere (deps : Externals L) (T : StructShape L) :
    (T.shape.leaves.Pairwise fun leaf leaf' =>
      ¬ leaf.path <+: leaf'.path ∧ ¬ leaf'.path <+: leaf.path) ∧
    (∀ tree, tree.isObject = true → ∀ leaf ∈ T.shape.leaves, ∀ value,
      ∃ tree', insertAtPath tree leaf.path value = some tree' ∧ tree'.isObject = true ∧
        tree'.readPath leaf.path = some value ∧
        ∀ path, ¬ leaf.path <+: path → ¬ path <+: leaf.path →
          tree'.readPath path = tree.readPath path) ∧
    (∀ tree, tree.isObject = true → ∀ overrides overrides' : List (Leaf × Value),
      (∀ o ∈ overrides, o.1 ∈ T.shape.leaves) → (overrides.map Prod.fst).Nodup →
      overrides.Perm overrides' →
      ∃ tree', insertAll overrides tree = some tree' ∧ insertAll overrides' tree = some tree') ∧
    (∀ (app : AppConfig) (name : String) (aliases : List (String × String)) (message : String),
      (app.sectionOf deps name T.shape aliases).1 ≠ .error (.panicked message)) ∧
    (∀ tree path value, insertAtPathIndexed tree path value = insertAtPath tree path value) ∧
    ∀ tree, addMissingTablesIndexed T.shape tree = some (addMissingTables T.shape tree) := by
  refine ⟨Shape.pairwise_leaves T.distinct, ?_, ?_, ?_, insertAtPathIndexed_eq,
    addMissingTablesIndexed_eq T.shape⟩
  · intro tree htree leaf hleaf value
    have htable : KeyedTree.IsTable (KeyedTree.writePath tree leaf.path value) :=
      KeyedTree.isTable_writePath (T.path_ne_nil hleaf)
    refine ⟨_, insertAtPath_eq htree leaf.path value, htable,
      KeyedTree.readPath_writePath_same tree value leaf.path, ?_⟩
    intro path hbelow habove
    exact KeyedTree.readPath_writePath_of_incomparable tree value ⟨hbelow, habove⟩
  · intro tree htree overrides overrides' hleaves hnodup hperm
    exact insertAll_perm T htree hperm hleaves hnodup
  · intro app name aliases message
    exact app.sectionOf_ne_panicked deps name T.isStruct aliases message

/-- A file that has a number where the struct nests a table. -/
def scalarTree : Value := .ofObject (VObject.new.insert "retry" (.int 5))

theorem overrides_do_not_interfere_sample :
    ∃ tree, insertAll [(⟨["retry", "max_attempts"], .scalar .i64⟩, .int 7),
          (⟨["port"], .scalar .u16⟩, .int 80)] scalarTree = some tree ∧
      insertAll [(⟨["port"], .scalar .u16⟩, .int 80),
          (⟨["retry", "max_attempts"], .scalar .i64⟩, .int 7)] scalarTree = some tree := by
  refine (overrides_do_not_interfere sampleExternals sampleShape).2.2.1 scalarTree rfl _ _ ?_ ?_
    (List.Perm.swap _ _ _)
  · intro o ho
    have hleaves : ∀ leaf ∈ [(⟨["retry", "max_attempts"], .scalar .i64⟩ : Leaf),
        ⟨["port"], .scalar .u16⟩], leaf ∈ (sampleShape (L := Unit)).shape.leaves := by
      decide
    apply hleaves
    simp only [List.mem_cons, List.not_mem_nil, or_false] at ho ⊢
    rcases ho with rfl | rfl
    · exact Or.inl rfl
    · exact Or.inr rfl
  · show [(⟨["retry", "max_attempts"], .scalar .i64⟩ : Leaf), ⟨["port"], .scalar .u16⟩].Nodup
    decide

end QuizArena.Config
