import QuizArena.Config.Reading

/-!
# Required fields

A field is required unless it is an option or declares a default; a nested struct
whose table is missing counts as an empty table. `Complete` says of a tree that no
table in it lacks a required field. The extraction of a section checks the tables
that are reached through nested structs alone: what lies inside an option, a sequence
or a map is left to the deserializer, which fills it from the type's default.
-/

namespace QuizArena.Config

open Lib

variable {L : Type}

mutual

/-- No table of the tree lacks a required field. -/
def Complete : Shape L → Value → Prop
  | .struct _ fields, value => ∀ table ∈ value.asObject, CompleteFields fields table
  | .option inner, value => Complete inner value
  | .sequence _ item, .array _ items => ∀ i, Complete item (items i)
  | .map shape, .object _ entries => ∀ k, Complete shape (entries k)
  | _, _ => True
termination_by structural shape => shape

/-- No field of the struct is a required one the table lacks, nor is one below it. -/
def CompleteFields : List (Field L (Shape L)) → VObject → Prop
  | [], _ => True
  | ⟨name, shape, default, _⟩ :: fields, table =>
    (match table.get name with
      | some value => Complete shape value
      | none => default.isSome ∨ shape.isOption ∨
        shape.namedFields.isSome ∧ Complete shape emptyTable) ∧
    CompleteFields fields table
termination_by structural fields => fields

end

mutual

/-- No table inside an option, a sequence or a map of the tree lacks a required field. -/
def InnerComplete : Shape L → Value → Prop
  | .struct _ fields, value => ∀ table ∈ value.asObject, InnerCompleteFields fields table
  | shape, value => Complete shape value
termination_by structural shape => shape

/-- The same of the fields a table has. -/
def InnerCompleteFields : List (Field L (Shape L)) → VObject → Prop
  | [], _ => True
  | ⟨name, shape, _, _⟩ :: fields, table =>
    (∀ value ∈ table.get name, InnerComplete shape value) ∧ InnerCompleteFields fields table
termination_by structural fields => fields

end

/-- The field is not a required one the table lacks, nor is one below it. -/
def CompleteField (table : VObject) (field : Field L (Shape L)) : Prop :=
  match table.get field.name with
  | some value => Complete field.shape value
  | none => field.default.isSome ∨ field.shape.isOption ∨
    field.shape.namedFields.isSome ∧ Complete field.shape emptyTable

theorem completeFields_iff {fields : List (Field L (Shape L))} {table : VObject} :
    CompleteFields fields table ↔ ∀ field ∈ fields, CompleteField table field := by
  induction fields with
  | nil => simp [CompleteFields]
  | cons field fields ih =>
    rw [List.forall_mem_cons, ← ih]
    rfl

theorem innerCompleteFields_iff {fields : List (Field L (Shape L))} {table : VObject} :
    InnerCompleteFields fields table ↔
      ∀ field ∈ fields, ∀ value ∈ table.get field.name, InnerComplete field.shape value := by
  induction fields with
  | nil => simp [InnerCompleteFields]
  | cons field fields ih =>
    rw [List.forall_mem_cons, ← ih]
    rfl

theorem complete_struct {denyUnknown : Bool} {fields : List (Field L (Shape L))}
    {table : VObject} :
    Complete (.struct denyUnknown fields) (.ofObject table) ↔
      ∀ field ∈ fields, CompleteField table field := by
  rw [← completeFields_iff]
  simp [Complete]

theorem innerComplete_struct {denyUnknown : Bool} {fields : List (Field L (Shape L))}
    {table : VObject} :
    InnerComplete (.struct denyUnknown fields) (.ofObject table) ↔
      ∀ field ∈ fields, ∀ value ∈ table.get field.name, InnerComplete field.shape value := by
  rw [← innerCompleteFields_iff]
  simp [InnerComplete]

/-- Nothing lies inside the tables of an empty one. -/
theorem innerComplete_emptyTable {shape : Shape L} (h : shape.namedFields.isSome) :
    InnerComplete shape emptyTable := by
  cases shape with
  | struct denyUnknown fields =>
    apply innerComplete_struct.mpr
    intro field _ value hvalue
    cases hvalue
  | option | sequence | map | scalar | other => cases h

/-- A complete tree is complete inside. -/
theorem Complete.inner {shape : Shape L} {value : Value} (h : Complete shape value) :
    InnerComplete shape value := by
  induction shape generalizing value with
  | struct denyUnknown fields ih =>
    cases htable : value.asObject with
    | none => simp [InnerComplete, htable]
    | some table =>
      rw [Value.eq_ofObject_of_asObject htable] at h ⊢
      apply innerComplete_struct.mpr
      intro field hfield child hchild
      have hcomplete := complete_struct.mp h field hfield
      rw [CompleteField, hchild] at hcomplete
      exact ih field hfield hcomplete
  | option | sequence | map | scalar | other => exact h

/-- A section that can be read has every required field outside its options, sequences
    and maps. -/
theorem complete_of_readAs {readLeaf : Shape L → Value → Option (Datum L)} {shape : Shape L}
    {value : Value} {datum : Datum L} (hread : readAs readLeaf .extraction shape value = some datum)
    (hinner : InnerComplete shape value) : Complete shape value := by
  induction shape generalizing value datum with
  | struct denyUnknown fields ih =>
    obtain ⟨table, values, rfl, _, hvalues, _⟩ := readAs_struct_eq_some_iff.mp hread
    apply complete_struct.mpr
    intro field hfield
    obtain ⟨datum, hdatum, _⟩ := readField_of_readFields hvalues hfield
    unfold readField at hdatum
    unfold CompleteField
    cases hget : table.get field.name with
    | some child =>
      rw [hget] at hdatum
      exact ih field hfield hdatum (innerComplete_struct.mp hinner field hfield child hget)
    | none =>
      rw [hget] at hdatum
      simp only [Filling.fill] at hdatum
      show field.default.isSome ∨ field.shape.isOption ∨
        field.shape.namedFields.isSome ∧ Complete field.shape emptyTable
      cases hstruct : field.shape.namedFields.isSome with
      | true =>
        rw [hstruct, if_pos rfl] at hdatum
        exact Or.inr (Or.inr ⟨rfl, ih field hfield hdatum (innerComplete_emptyTable hstruct)⟩)
      | false =>
        simp only [hstruct, Bool.false_eq_true, if_false] at hdatum
        cases hdefault : field.default with
        | some default => exact Or.inl rfl
        | none =>
          cases hoption : field.shape.isOption with
          | true => exact Or.inr (Or.inl rfl)
          | false => simp [hdefault, hoption] at hdatum
  | option | sequence | map | scalar | other => exact hinner

/-- A section that is extracted lacks no required field exactly when none is missing
    inside its options, sequences and maps. -/
theorem sectionOf_complete_iff (deps : Externals L)
    (readLeaf : Shape L → Value → Option (Datum L)) (hdeps : ReadsByDefault deps readLeaf)
    (app : AppConfig) (name : String) (T : StructShape L) (aliases : List (String × String))
    (tree : Value) (applied : List String)
    (hresolve : (app.resolve deps name T.shape aliases).1 = .ok (tree, applied)) :
    ((∃ datum, (app.sectionOf deps name T.shape aliases).1 = .ok datum) →
        Complete T.shape tree) ↔
      InnerComplete T.shape tree ∨ readAs readLeaf .extraction T.shape tree = none := by
  have hsection : ∀ datum, (app.sectionOf deps name T.shape aliases).1 = .ok datum ↔
      readAs readLeaf .extraction T.shape tree = some datum :=
    fun _ => AppConfig.sectionOf_ok_iff hdeps hresolve
  constructor
  · intro h
    cases hread : readAs readLeaf .extraction T.shape tree with
    | none => exact Or.inr rfl
    | some datum =>
      have hcomplete := h ⟨datum, (hsection datum).mpr hread⟩
      exact Or.inl hcomplete.inner
  · intro h hok
    obtain ⟨datum, hdatum⟩ := hok
    have hread := (hsection datum).mp hdatum
    rcases h with hinner | hnone
    · exact complete_of_readAs hread hinner
    · rw [hnone] at hread
      cases hread

/-- An optional table of credentials, both of them required. -/
def credentialsShape : StructShape Value where
  shape := .struct true [⟨"auth", .option (.struct true [
    ⟨"user", .scalar .string, none, some (.leaf (.string ""))⟩,
    ⟨"token", .scalar .string, none, some (.leaf (.string ""))⟩]), none, none⟩]
  isStruct := rfl
  distinct := by
    refine .struct (by decide) ?_
    simp only [List.forall_mem_cons, List.not_mem_nil, false_implies, implies_true, and_true]
    refine .option (.struct (by decide) ?_)
    simp only [List.forall_mem_cons, List.not_mem_nil, false_implies, implies_true, and_true]
    exact ⟨.scalar, .scalar⟩

/-- A file that has the user but no token. -/
def credentialsApp : AppConfig :=
  .new (fun _ => .ok (.table {"auth"} fun _ => .table {"user"} fun _ => .string "quiz"))
    fun _ => none

/-- The tree of the file. -/
def credentialsTree : Value := credentialsApp.fileTree "client"

theorem credentials_incomplete : ¬ InnerComplete credentialsShape.shape credentialsTree := by
  intro h
  have hauth : CompleteFields _ _ := (h _ rfl).1 _ rfl _ rfl
  have htoken : (none : Option (Datum Value)).isSome = true ∨
      (Shape.scalar (L := Value) .string).isOption = true ∨
      (Shape.scalar (L := Value) .string).namedFields.isSome = true ∧ True := hauth.2.1
  rcases htoken with hdefault | hoption | ⟨hstruct, _⟩
  · cases hdefault
  · cases hoption
  · cases hstruct

/-- The section is extracted with an empty token no layer wrote. -/
theorem optional_table_lacks_required_field :
    (credentialsApp.resolve scalarExternals "client" credentialsShape.shape []).1 =
        .ok (credentialsTree, []) ∧
      (credentialsApp.sectionOf scalarExternals "client" credentialsShape.shape []).1 =
        .ok (.record [("auth", .present (.record [("user", .leaf (.string "quiz")),
          ("token", .leaf (.string ""))]))]) ∧
      ¬ Complete credentialsShape.shape credentialsTree :=
  ⟨rfl, rfl, fun h => credentials_incomplete h.inner⟩

theorem sectionOf_complete_iff_credentials :
    ¬ ((∃ datum, (credentialsApp.sectionOf scalarExternals "client" credentialsShape.shape []).1 =
        .ok datum) → Complete credentialsShape.shape credentialsTree) := by
  rw [sectionOf_complete_iff scalarExternals readScalar readsByDefault_scalarExternals
    credentialsApp "client" credentialsShape [] credentialsTree [] rfl]
  intro h
  rcases h with hinner | hnone
  · exact credentials_incomplete hinner
  · cases hnone

end QuizArena.Config
