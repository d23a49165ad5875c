import QuizArena.Config.Reading

/-!
# Declared defaults

The documentation fills a field no layer writes from its declared default, as nothing
if it is an option, and as an empty table if it is a nested struct. The extraction of
a section departs from this in two places: it writes the empty table of a nested
struct before it looks at the default the field declares, and inside an option, a
sequence or a map it leaves a missing nested struct to the deserializer, which takes the
`Default` of its type. `DefaultsAgree` says of a tree that neither makes a difference.
-/

namespace QuizArena.Config

open Lib

variable {L : Type} (readLeaf : Shape L → Value → Option (Datum L))

mutual

/-- Every nested struct the tree lacks is filled by the rule with what the
    documentation fills it with. -/
def DefaultsAgree : Filling → Shape L → Value → Prop
  | filling, .struct _ fields, value =>
    ∀ table ∈ value.asObject, FieldDefaultsAgree filling fields table
  | _, .option _, .null => True
  | filling, .option inner, value => DefaultsAgree filling.inner inner value
  | filling, .sequence _ item, .array _ items => ∀ i, DefaultsAgree filling.inner item (items i)
  | filling, .map shape, .object _ entries => ∀ k, DefaultsAgree filling.inner shape (entries k)
  | _, _, _ => True
termination_by structural _ shape => shape

/-- The same of the fields of a table. -/
def FieldDefaultsAgree : Filling → List (Field L (Shape L)) → VObject → Prop
  | _, [], _ => True
  | filling, ⟨name, shape, default, typeDefault⟩ :: fields, table =>
    (match table.get name, filling, default with
      | some value, filling, _ => DefaultsAgree filling shape value
      -- the empty table comes before the declared default
      | none, .extraction, some datum => shape.namedFields.isSome →
        readAs readLeaf .extraction shape emptyTable = some datum
      | none, .extraction, none => shape.namedFields.isSome →
        DefaultsAgree .extraction shape emptyTable
      -- the type's default comes in place of the empty table
      | none, .deserializer, none => shape.namedFields.isSome →
        typeDefault = readAs readLeaf .documented shape emptyTable
      | none, .deserializer, some _ => True
      | none, .documented, _ => True) ∧
    FieldDefaultsAgree filling fields table
termination_by structural _ fields => fields

end

/-- The same of one field of a table. -/
def FieldAgrees (filling : Filling) (table : VObject) (field : Field L (Shape L)) : Prop :=
  match table.get field.name, filling, field.default with
  | some value, filling, _ => DefaultsAgree readLeaf filling field.shape value
  | none, .extraction, some datum => field.shape.namedFields.isSome →
    readAs readLeaf .extraction field.shape emptyTable = some datum
  | none, .extraction, none => field.shape.namedFields.isSome →
    DefaultsAgree readLeaf .extraction field.shape emptyTable
  | none, .deserializer, none => field.shape.namedFields.isSome →
    field.typeDefault = readAs readLeaf .documented field.shape emptyTable
  | none, .deserializer, some _ => True
  | none, .documented, _ => True

variable {readLeaf}

theorem fieldDefaultsAgree_iff {filling : Filling} {fields : List (Field L (Shape L))}
    {table : VObject} :
    FieldDefaultsAgree readLeaf filling fields table ↔
      ∀ field ∈ fields, FieldAgrees readLeaf filling table field := by
  induction fields with
  | nil => simp [FieldDefaultsAgree]
  | cons field fields ih =>
    rw [List.forall_mem_cons, ← ih]
    rfl

theorem defaultsAgree_struct {filling : Filling} {denyUnknown : Bool}
    {fields : List (Field L (Shape L))} {table : VObject} :
    DefaultsAgree readLeaf filling (.struct denyUnknown fields) (.ofObject table) ↔
      ∀ field ∈ fields, FieldAgrees readLeaf filling table field := by
  rw [← fieldDefaultsAgree_iff]
  simp [DefaultsAgree]

/-- Two rules read the same record when they read the same for every field. -/
theorem readFields_eq_iff {filling filling' : Filling} {fields : List (Field L (Shape L))}
    {table : VObject} {values : List (String × Datum L)}
    (h : readFields readLeaf filling' fields table = some values) :
    readFields readLeaf filling fields table = some values ↔
      ∀ field ∈ fields, readField readLeaf filling table field =
        readField readLeaf filling' table field := by
  rw [readFields_eq_some_iff] at h ⊢
  induction h with
  | nil => simp
  | cons hhead htail ih =>
    rw [List.forall₂_cons, List.forall_mem_cons, ih, hhead.2]
    exact ⟨fun h => ⟨h.1.2, h.2⟩, fun h => ⟨⟨hhead.1, h.1⟩, h.2⟩⟩

/-- A struct is no option. -/
theorem Shape.isOption_of_struct {shape : Shape L} (h : shape.namedFields.isSome) :
    shape.isOption = false := by
  cases shape with
  | option inner => cases h
  | struct | sequence | map | scalar | other => rfl

theorem readField_eq_iff {filling : Filling} {table : VObject} {field : Field L (Shape L)}
    (ih : ∀ {filling : Filling} {value : Value} {datum : Datum L},
      readAs readLeaf .documented field.shape value = some datum →
      (readAs readLeaf filling field.shape value = some datum ↔
        DefaultsAgree readLeaf filling field.shape value))
    {datum : Datum L} (h : readField readLeaf .documented table field = some datum) :
    readField readLeaf filling table field = some datum ↔
      FieldAgrees readLeaf filling table field := by
  unfold readField at h ⊢
  unfold FieldAgrees
  cases hget : table.get field.name with
  | some value =>
    rw [hget] at h
    exact ih h
  | none =>
    rw [hget] at h
    simp only at h ⊢
    cases hstruct : field.shape.namedFields.isSome with
    | true =>
      have hoption := Shape.isOption_of_struct hstruct
      simp only [Filling.fill, hoption, hstruct, Bool.false_eq_true, if_false, if_true,
        Option.or_none] at h
      cases hdefault : field.default with
      | some default =>
        rw [hdefault, Option.some_or, Option.some.injEq] at h
        subst h
        cases filling with
        | extraction => simp [Filling.fill, hstruct]
        | deserializer => simp [Filling.fill, hdefault]
        | documented => simp [Filling.fill, hdefault]
      | none =>
        rw [hdefault, Option.none_or] at h
        cases filling with
        | extraction => simpa [Filling.fill, hstruct] using ih h
        | deserializer => simp [Filling.fill, hdefault, hoption, h]
        | documented => simp [Filling.fill, hdefault, hoption, hstruct, h]
    | false =>
      simp only [Filling.fill, hstruct, Bool.false_eq_true, if_false, Option.or_none] at h
      cases filling with
      | extraction =>
        simp only [Filling.fill, hstruct, Bool.false_eq_true, if_false, h]
        cases field.default <;> simp
      | deserializer =>
        simp only [Filling.fill, h, Option.some_or]
        cases field.default <;> simp
      | documented => simp [Filling.fill, hstruct, h]

/-- A tree the documentation gives a value reads as that value by another rule
    exactly when the rules fill its missing structs alike. -/
theorem readAs_eq_iff {filling : Filling} {shape : Shape L} {value : Value} {datum : Datum L}
    (h : readAs readLeaf .documented shape value = some datum) :
    readAs readLeaf filling shape value = some datum ↔
      DefaultsAgree readLeaf filling shape value := by
  induction shape generalizing filling value datum with
  | struct denyUnknown fields ih =>
    obtain ⟨table, values, rfl, hknown, hvalues, rfl⟩ := readAs_struct_eq_some_iff.mp h
    have hfields : ∀ field ∈ fields,
        (readField readLeaf filling table field = readField readLeaf .documented table field ↔
          FieldAgrees readLeaf filling table field) := by
      intro field hfield
      obtain ⟨datum, hdatum, _⟩ := readField_of_readFields hvalues hfield
      rw [hdatum]
      exact readField_eq_iff (ih field hfield) hdatum
    rw [defaultsAgree_struct, readAs_struct, hknown]
    simp only [Bool.false_eq_true, if_false, Option.map_eq_some_iff, Datum.record.injEq,
      exists_eq_right]
    rw [readFields_eq_iff hvalues]
    exact forall₂_congr hfields
  | option inner ih =>
    cases value with
    | null =>
      cases h
      simp [readAs, DefaultsAgree]
    | bool | int | float | string | array | object =>
      obtain ⟨inside, hinside, rfl⟩ := Option.map_eq_some_iff.mp h
      simp only [readAs, Option.map_eq_some_iff, Datum.present.injEq, exists_eq_right]
      exact ih hinside
  | sequence kind item ih =>
    cases value with
    | array length items =>
      unfold readAs at h ⊢
      cases htakes : kind.takes length with
      | false => simp [htakes] at h
      | true =>
        rw [htakes, if_pos rfl] at h
        obtain ⟨inside, hinside, rfl⟩ := Option.map_eq_some_iff.mp h
        rw [family_eq_some_iff] at hinside
        simp only [if_true, Option.map_eq_some_iff, Datum.sequence.injEq, heq_eq_eq, true_and,
          exists_eq_right, family_eq_some_iff]
        exact forall_congr' fun i => ih (hinside i)
    | null | bool | int | float | string | object => cases h
  | map shape ih =>
    cases value with
    | object keys entries =>
      obtain ⟨inside, hinside, rfl⟩ := Option.map_eq_some_iff.mp h
      rw [family_eq_some_iff] at hinside
      simp only [readAs, Option.map_eq_some_iff, Datum.map.injEq, heq_eq_eq, true_and,
        exists_eq_right, family_eq_some_iff]
      exact forall_congr' fun k => ih (hinside k)
    | null | bool | int | float | string | array => cases h
  | scalar | other => exact iff_of_true h trivial

/-- A section whose layers leave nothing required unset takes the documented defaults
    exactly when the two rules fill its missing structs alike. -/
theorem sectionOf_defaults_iff (deps : Externals L)
    (readLeaf : Shape L → Value → Option (Datum L)) (hdeps : ReadsByDefault deps readLeaf)
    (app : AppConfig) (name : String) (T : StructShape L) (aliases : List (String × String))
    (tree : Value) (applied : List String)
    (hresolve : (app.resolve deps name T.shape aliases).1 = .ok (tree, applied))
    (datum : Datum L) (hdatum : readAs readLeaf .documented T.shape tree = some datum) :
    (app.sectionOf deps name T.shape aliases).1 = .ok datum ↔
      DefaultsAgree readLeaf .extraction T.shape tree := by
  rw [AppConfig.sectionOf_ok_iff hdeps hresolve]
  exact readAs_eq_iff hdatum

/-- A configuration of a number of attempts. -/
def attempts (number : Int) : Datum Value := .record [("max_attempts", .leaf (.int number))]

/-- A section with a nested table of retries, whose field may declare a default. The
    nested field declares three attempts. -/
def retryShape (declared : Option (Datum Value)) : StructShape Value where
  shape := .struct true [⟨"retry", .struct true
    [⟨"max_attempts", .scalar .i64, some (.leaf (.int 3)), some (.leaf (.int 0))⟩],
    declared, none⟩]
  isStruct := rfl
  distinct := by
    refine .struct (List.nodup_singleton _) ?_
    simp only [List.forall_mem_cons, List.not_mem_nil, false_implies, implies_true, and_true]
    refine .struct (List.nodup_singleton _) ?_
    simp only [List.forall_mem_cons, List.not_mem_nil, false_implies, implies_true, and_true]
    exact .scalar

/-- No file and no environment. -/
def emptyApp : AppConfig := .new (fun _ => .error .notFound) fun _ => none

/-- A declared default of seven attempts gives way to the three of the empty table. -/
theorem declared_struct_default_ignored :
    (emptyApp.resolve scalarExternals "client" (retryShape (some (attempts 7))).shape []).1 =
        .ok (emptyTable, []) ∧
      readAs readScalar .documented (retryShape (some (attempts 7))).shape emptyTable =
        some (.record [("retry", attempts 7)]) ∧
      (emptyApp.sectionOf scalarExternals "client" (retryShape (some (attempts 7))).shape []).1 =
        .ok (.record [("retry", attempts 3)]) ∧
      Datum.record [("retry", attempts 3)] ≠ .record [("retry", attempts 7)] := by
  refine ⟨rfl, rfl, rfl, ?_⟩
  simp [attempts]

theorem sectionOf_defaults_iff_undeclared :
    (emptyApp.sectionOf scalarExternals "client" (retryShape none).shape []).1 =
      .ok (.record [("retry", attempts 3)]) := by
  apply (sectionOf_defaults_iff scalarExternals readScalar readsByDefault_scalarExternals emptyApp
    "client" (retryShape none) [] emptyTable [] rfl (.record [("retry", attempts 3)]) rfl).mpr
  apply defaultsAgree_struct.mpr
  intro field hfield
  rw [List.mem_singleton.mp hfield]
  intro _
  apply defaultsAgree_struct.mpr
  intro field hfield
  rw [List.mem_singleton.mp hfield]
  intro hstruct
  cases hstruct

end QuizArena.Config
