import Mathlib.Data.Fintype.Basic
import QuizArena.Config.Precedence

/-!
# Reading a tree at a shape

`readAs` reads a tree at a shape field by field, under a rule for the fields a table
lacks. There are three rules: that of the deserializer, that of the documentation,
and the one the extraction of a section comes to once it has completed the tree,
checked the required fields and deserialized the rest. `sectionOf_ok_iff` says that
it does come to that, so what is proved later about defaults and required fields is
proved about readings and never about the three walks over the tree.
-/

namespace QuizArena.Config

open Lib

variable {L : Type}

/-! ## Readings -/

/-- The members of a family, when there is one at every index. -/
def family {ι α : Type} (f : ι → Option α) [Decidable (∀ i, (f i).isSome)] : Option (ι → α) :=
  if h : ∀ i, (f i).isSome then some fun i => (f i).get (h i) else none

theorem family_eq_some_iff {ι α : Type} {f : ι → Option α} [Decidable (∀ i, (f i).isSome)]
    {g : ι → α} : family f = some g ↔ ∀ i, f i = some (g i) := by
  unfold family
  constructor
  · intro h i
    split at h
    · rw [← Option.some.inj h]
      exact (Option.some_get _).symm
    · cases h
  · intro h
    have hall : ∀ i, (f i).isSome := by
      intro i
      rw [h i]
      rfl
    rw [dif_pos hall]
    refine congrArg some (funext fun i => ?_)
    simp [h i]

/-- How a field that its table lacks is filled. -/
inductive Filling where
  /-- From the declared default, as nothing if it is an option, else from the type's
      own default. -/
  | deserializer
  /-- From the declared default, as nothing if it is an option, else from an empty
      table if it is a struct. -/
  | documented
  /-- From an empty table if it is a struct, else from the declared default or as
      nothing if it is an option; inside an option, a sequence or a map as the
      deserializer does. -/
  | extraction
  deriving DecidableEq

namespace Filling

/-- The filling inside an option, a sequence or a map. -/
def inner : Filling → Filling
  | .extraction => .deserializer
  | fill => fill

/-- What stands in for a field its table lacks, given the reading of an empty table
    at the field's shape. -/
def fill (filling : Filling) (field : Field L (Shape L)) (emptyReading : Option (Datum L)) :
    Option (Datum L) :=
  let absent : Option (Datum L) := if field.shape.isOption then some .absent else none
  match filling with
  | .deserializer => (field.default.or absent).or field.typeDefault
  | .documented =>
    (field.default.or absent).or (if field.shape.namedFields.isSome then emptyReading else none)
  | .extraction =>
    if field.shape.namedFields.isSome then emptyReading else field.default.or absent

end Filling

/-- A table without entries. -/
def emptyTable : Value := .ofObject VObject.new

/-- Whether a struct refuses the table for a key that is none of its fields. -/
def refusesUnknown (denyUnknown : Bool) (fields : List (Field L (Shape L))) (table : VObject) :
    Bool :=
  denyUnknown && decide (∃ key ∈ table.keys, key ∉ fields.map Field.name)

section Reading

variable (readLeaf : Shape L → Value → Option (Datum L))

mutual

/-- The reading of a tree at a shape. What is no struct, option, sequence or map is read
    by `readLeaf`. -/
def readAs : Filling → Shape L → Value → Option (Datum L)
  | filling, .struct denyUnknown fields, value => value.asObject.bind fun table =>
    if refusesUnknown denyUnknown fields table then none
    else (readFields filling fields table).map .record
  | _, .option _, .null => some .absent
  | filling, .option inner, value => (readAs filling.inner inner value).map .present
  | filling, .sequence kind item, .array length items =>
    if kind.takes length then
      (family fun i => readAs filling.inner item (items i)).map (.sequence length)
    else none
  | _, .sequence _ _, _ => none
  | filling, .map shape, .object keys entries =>
    (family fun k => readAs filling.inner shape (entries k)).map (.map keys)
  | _, .map _, _ => none
  | _, shape, value => readLeaf shape value
termination_by structural _ shape => shape

/-- The readings of the fields of a struct, with their names. -/
def readFields : Filling → List (Field L (Shape L)) → VObject → Option (List (String × Datum L))
  | _, [], _ => some []
  | filling, ⟨name, shape, default, typeDefault⟩ :: fields, table =>
    let value := match table.get name with
      | some value => readAs filling shape value
      | none => filling.fill ⟨name, shape, default, typeDefault⟩ (readAs filling shape emptyTable)
    value.bind fun value => (readFields filling fields table).map ((name, value) :: ·)
termination_by structural _ fields => fields

end

/-- The reading of a field of a table. -/
def readField (filling : Filling) (table : VObject) (field : Field L (Shape L)) :
    Option (Datum L) :=
  match table.get field.name with
  | some value => readAs readLeaf filling field.shape value
  | none => filling.fill field (readAs readLeaf filling field.shape emptyTable)

variable {readLeaf}

theorem readFields_cons (filling : Filling) (field : Field L (Shape L))
    (fields : List (Field L (Shape L))) (table : VObject) :
    readFields readLeaf filling (field :: fields) table =
      (readField readLeaf filling table field).bind fun value =>
        (readFields readLeaf filling fields table).map ((field.name, value) :: ·) := rfl

/-- A record is read field by field. -/
theorem readFields_eq_some_iff {filling : Filling} {fields : List (Field L (Shape L))}
    {table : VObject} {values : List (String × Datum L)} :
    readFields readLeaf filling fields table = some values ↔
      List.Forall₂ (fun field value => value.1 = field.name ∧
        readField readLeaf filling table field = some value.2) fields values := by
  induction fields generalizing values with
  | nil =>
    rw [List.forall₂_nil_left_iff, readFields, Option.some.injEq, eq_comm]
  | cons field fields ih =>
    rw [readFields_cons, List.forall₂_cons_left_iff]
    constructor
    · intro h
      obtain ⟨value, hvalue, h⟩ := Option.bind_eq_some_iff.mp h
      obtain ⟨rest, hrest, rfl⟩ := Option.map_eq_some_iff.mp h
      exact ⟨_, rest, ⟨rfl, hvalue⟩, ih.mp hrest, rfl⟩
    · intro h
      obtain ⟨⟨name, value⟩, rest, ⟨hname, hvalue⟩, hrest, rfl⟩ := h
      simp only at hname hvalue
      rw [hvalue, ih.mpr hrest, hname]
      rfl

/-- Every field of the record has its reading there. -/
theorem readField_of_readFields {filling : Filling} {fields : List (Field L (Shape L))}
    {table : VObject} {values : List (String × Datum L)}
    (h : readFields readLeaf filling fields table = some values) {field : Field L (Shape L)}
    (hfield : field ∈ fields) :
    ∃ datum, readField readLeaf filling table field = some datum ∧
      (field.name, datum) ∈ values := by
  rw [readFields_eq_some_iff] at h
  induction h with
  | nil => cases hfield
  | cons hhead _ ih =>
    rcases List.mem_cons.mp hfield with rfl | hfield
    · refine ⟨_, hhead.2, ?_⟩
      rw [← hhead.1]
      exact List.mem_cons_self
    · obtain ⟨datum, hdatum, hmem⟩ := ih hfield
      exact ⟨datum, hdatum, List.mem_cons_of_mem _ hmem⟩

theorem readAs_struct (filling : Filling) (denyUnknown : Bool) (fields : List (Field L (Shape L)))
    (table : VObject) :
    readAs readLeaf filling (.struct denyUnknown fields) (.ofObject table) =
      if refusesUnknown denyUnknown fields table then none
      else (readFields readLeaf filling fields table).map .record := rfl

/-- Only a table is read at a struct. -/
theorem readAs_struct_eq_some_iff {filling : Filling} {denyUnknown : Bool}
    {fields : List (Field L (Shape L))} {value : Value} {datum : Datum L} :
    readAs readLeaf filling (.struct denyUnknown fields) value = some datum ↔
      ∃ table values, value = .ofObject table ∧ refusesUnknown denyUnknown fields table = false ∧
        readFields readLeaf filling fields table = some values ∧ datum = .record values := by
  constructor
  · intro h
    unfold readAs at h
    obtain ⟨table, htable, h⟩ := Option.bind_eq_some_iff.mp h
    split at h
    · cases h
    · rename_i hknown
      obtain ⟨values, hvalues, rfl⟩ := Option.map_eq_some_iff.mp h
      exact ⟨table, values, Value.eq_ofObject_of_asObject htable, by simpa using hknown, hvalues,
        rfl⟩
  · intro h
    obtain ⟨table, values, rfl, hknown, hvalues, rfl⟩ := h
    rw [readAs_struct, hknown, hvalues]
    rfl

/-! ## The completed tree -/

/-- What the completed tree has for a field: a completed table for a nested struct,
    and for any other field what was there. -/
def completedField (field : Field L (Shape L)) (table : VObject) : Option Value :=
  if field.shape.namedFields.isSome then
    some (addMissingTables field.shape ((table.get field.name).getD emptyTable))
  else table.get field.name

theorem addMissingFieldTables_cons (field : Field L (Shape L)) (fields : List (Field L (Shape L)))
    (table : VObject) :
    addMissingFieldTables (field :: fields) table =
      if field.shape.namedFields.isNone then addMissingFieldTables fields table
      else addMissingFieldTables fields (table.insert field.name
        (addMissingTables field.shape ((table.get field.name).getD emptyTable))) := rfl

theorem get_addMissingFieldTables_of_notMem {fields : List (Field L (Shape L))} {table : VObject}
    {key : String} (h : key ∉ fields.map Field.name) :
    (addMissingFieldTables fields table).get key = table.get key := by
  induction fields generalizing table with
  | nil => rfl
  | cons field fields ih =>
    rw [List.map_cons, List.mem_cons, not_or] at h
    rw [addMissingFieldTables_cons]
    split
    · exact ih h.2
    · rw [ih h.2, VObject.get_insert_ne _ _ h.1]

theorem get_addMissingFieldTables {fields : List (Field L (Shape L))} {table : VObject}
    (hnames : (fields.map Field.name).Nodup) {field : Field L (Shape L)} (hfield : field ∈ fields) :
    (addMissingFieldTables fields table).get field.name = completedField field table := by
  induction fields generalizing table with
  | nil => cases hfield
  | cons head fields ih =>
    rw [List.map_cons, List.nodup_cons] at hnames
    rw [addMissingFieldTables_cons]
    rcases List.mem_cons.mp hfield with rfl | hfield
    · unfold completedField
      split
      · rename_i hstruct
        have hnot : field.shape.namedFields.isSome = false := by
          rw [Option.isNone_iff_eq_none.mp hstruct]
          rfl
        rw [hnot, get_addMissingFieldTables_of_notMem hnames.1]
        rfl
      · rename_i hstruct
        have hsome : field.shape.namedFields.isSome = true := by
          simpa [Option.isSome_iff_ne_none] using hstruct
        rw [hsome, get_addMissingFieldTables_of_notMem hnames.1, VObject.get_insert_same]
        rfl
    · have hne : field.name ≠ head.name := by
        intro heq
        exact hnames.1 (heq ▸ List.mem_map_of_mem hfield)
      split
      · exact ih hnames.2 hfield
      · rw [ih hnames.2 hfield]
        unfold completedField
        rw [VObject.get_insert_ne _ _ hne]

/-- Completing a table brings no unknown key into it. -/
theorem refusesUnknown_addMissingFieldTables (denyUnknown : Bool)
    (fields : List (Field L (Shape L))) (table : VObject) :
    refusesUnknown denyUnknown fields (addMissingFieldTables fields table) =
      refusesUnknown denyUnknown fields table := by
  unfold refusesUnknown
  congr 1
  rw [decide_eq_decide]
  have hkey : ∀ key, key ∉ fields.map Field.name →
      (key ∈ (addMissingFieldTables fields table).keys ↔ key ∈ table.keys) := by
    intro key hkey
    rw [VObject.mem_keys_iff, VObject.mem_keys_iff, get_addMissingFieldTables_of_notMem hkey]
  constructor
  · intro h
    obtain ⟨key, hmem, hnot⟩ := h
    exact ⟨key, (hkey key hnot).mp hmem, hnot⟩
  · intro h
    obtain ⟨key, hmem, hnot⟩ := h
    exact ⟨key, (hkey key hnot).mpr hmem, hnot⟩

/-! ## The reading a section comes to -/

/-- The required field a field's own check reports. -/
def missingAt (field : Field L (Shape L)) (table : VObject) : Option String :=
  match table.get field.name with
  | some value => (missingRequiredField field.shape value).map fun rest => field.name ++ "." ++ rest
  | none => if field.default.isSome ∨ field.shape.isOption then none else some field.name

theorem missingField_cons (field : Field L (Shape L)) (fields : List (Field L (Shape L)))
    (table : VObject) :
    missingField (field :: fields) table = (missingAt field table <|> missingField fields table) :=
  rfl

theorem missingRequiredField_of_not_struct {shape : Shape L} (h : shape.namedFields = none)
    (value : Value) : missingRequiredField shape value = none := by
  cases shape with
  | struct denyUnknown fields => cases h
  | option | sequence | map | scalar | other => rfl

theorem addMissingTables_of_not_struct {shape : Shape L} (h : shape.namedFields = none)
    (value : Value) : addMissingTables shape value = value := by
  cases shape with
  | struct denyUnknown fields => cases h
  | option | sequence | map | scalar | other => rfl

/-- Only at a struct does it matter whether a table is a section's or not. -/
theorem readAs_extraction_of_not_struct {shape : Shape L} (h : shape.namedFields = none)
    (value : Value) :
    readAs readLeaf .extraction shape value = readAs readLeaf .deserializer shape value := by
  cases shape with
  | struct denyUnknown fields => cases h
  | option inner => cases value <;> rfl
  | sequence kind item => cases value <;> rfl
  | map item => cases value <;> rfl
  | scalar | other => rfl

theorem readField_extraction {field : Field L (Shape L)} {table table' : VObject}
    (ih : ∀ {value : Value} {datum : Datum L},
      missingRequiredField field.shape (addMissingTables field.shape value) = none ∧
          readAs readLeaf .deserializer field.shape (addMissingTables field.shape value) =
            some datum ↔
        readAs readLeaf .extraction field.shape value = some datum)
    (hget : table'.get field.name = completedField field table) {datum : Datum L} :
    missingAt field table' = none ∧ readField readLeaf .deserializer table' field = some datum ↔
      readField readLeaf .extraction table field = some datum := by
  unfold missingAt readField
  rw [hget]
  cases hstruct : field.shape.namedFields with
  | some fields =>
    have hfill : (match table.get field.name with
        | some value => readAs readLeaf .extraction field.shape value
        | none => Filling.extraction.fill field
            (readAs readLeaf .extraction field.shape emptyTable)) =
        readAs readLeaf .extraction field.shape ((table.get field.name).getD emptyTable) := by
      cases table.get field.name with
      | some value => rfl
      | none => simp [Filling.fill, hstruct]
    simp only [completedField, hstruct, Option.isSome_some, if_true, Option.map_eq_none_iff]
    rw [hfill]
    exact ih
  | none =>
    simp only [completedField, hstruct, Option.isSome_none, Bool.false_eq_true, if_false]
    cases table.get field.name with
    | some value =>
      simp only [missingRequiredField_of_not_struct hstruct,
        readAs_extraction_of_not_struct hstruct, Option.map_none, true_and]
    | none =>
      simp only [Filling.fill, hstruct, Option.isSome_none, Bool.false_eq_true, if_false]
      cases hdefault : field.default with
      | some default => simp
      | none =>
        cases hoption : field.shape.isOption with
        | true => simp
        | false => simp

theorem readFields_extraction {fields : List (Field L (Shape L))} {table table' : VObject}
    (h : ∀ field ∈ fields, ∀ datum, missingAt field table' = none ∧
        readField readLeaf .deserializer table' field = some datum ↔
      readField readLeaf .extraction table field = some datum)
    {values : List (String × Datum L)} :
    missingField fields table' = none ∧
        readFields readLeaf .deserializer fields table' = some values ↔
      readFields readLeaf .extraction fields table = some values := by
  induction fields generalizing values with
  | nil => simp [missingField, readFields]
  | cons field fields ih =>
    have htail := fun values =>
      @ih (fun field' hfield' => h field' (List.mem_cons_of_mem _ hfield')) values
    have hhead := h field List.mem_cons_self
    rw [missingField_cons, readFields_cons, readFields_cons, Option.bind_eq_some_iff,
      Option.bind_eq_some_iff]
    simp only [Option.map_eq_some_iff, Option.orElse_eq_orElse, Option.orElse_eq_or,
      Option.or_eq_none_iff]
    constructor
    · intro hread
      obtain ⟨⟨hnone, hnones⟩, value, hvalue, rest, hrest, heq⟩ := hread
      exact ⟨value, (hhead value).mp ⟨hnone, hvalue⟩, rest, (htail rest).mp ⟨hnones, hrest⟩, heq⟩
    · intro hread
      obtain ⟨value, hvalue, rest, hrest, heq⟩ := hread
      obtain ⟨hnone, hvalue⟩ := (hhead value).mpr hvalue
      obtain ⟨hnones, hrest⟩ := (htail rest).mpr hrest
      exact ⟨⟨hnone, hnones⟩, value, hvalue, rest, hrest, heq⟩

/-- A section passes the check for required fields and is deserialized after its
    tables are completed exactly when it is read by the rule for sections. -/
theorem readAs_extraction {shape : Shape L} (h : shape.DistinctNames) {value : Value}
    {datum : Datum L} :
    missingRequiredField shape (addMissingTables shape value) = none ∧
        readAs readLeaf .deserializer shape (addMissingTables shape value) = some datum ↔
      readAs readLeaf .extraction shape value = some datum := by
  induction shape generalizing value datum with
  | struct denyUnknown fields ih =>
    cases h with
    | struct hnames hfields =>
    cases htable : value.asObject with
    | none => simp [addMissingTables, readAs, htable]
    | some table =>
      rw [Value.eq_ofObject_of_asObject htable]
      have hcompleted : addMissingTables (.struct denyUnknown fields) (.ofObject table) =
          .ofObject (addMissingFieldTables fields table) := rfl
      have hmissing : missingRequiredField (.struct denyUnknown fields)
          (.ofObject (addMissingFieldTables fields table)) =
          missingField fields (addMissingFieldTables fields table) := rfl
      rw [hcompleted, hmissing, readAs_struct, readAs_struct,
        refusesUnknown_addMissingFieldTables]
      cases refusesUnknown denyUnknown fields table with
      | true => simp
      | false =>
        have hfieldwise : ∀ values,
            missingField fields (addMissingFieldTables fields table) = none ∧
            readFields readLeaf .deserializer fields (addMissingFieldTables fields table) =
              some values ↔
            readFields readLeaf .extraction fields table = some values := by
          intro values
          apply readFields_extraction
          intro field hfield datum
          exact readField_extraction (ih field hfield (hfields field hfield))
            (get_addMissingFieldTables hnames hfield)
        simp only [Bool.false_eq_true, if_false, Option.map_eq_some_iff]
        constructor
        · intro hread
          obtain ⟨hnone, values, hvalues, heq⟩ := hread
          exact ⟨values, (hfieldwise values).mp ⟨hnone, hvalues⟩, heq⟩
        · intro hread
          obtain ⟨values, hvalues, heq⟩ := hread
          obtain ⟨hnone, hvalues⟩ := (hfieldwise values).mpr hvalues
          exact ⟨hnone, values, hvalues, heq⟩
  | option | sequence | map | scalar | other =>
    rw [readAs_extraction_of_not_struct rfl, addMissingTables_of_not_struct rfl,
      missingRequiredField_of_not_struct rfl]
    simp

end Reading

/-- `facet_value::from_value`, as documented: it reads field by field, and fills a
    missing field from its declared default, as nothing if it is an option, else from
    its type's `Default` when the type has one. -/
def ReadsByDefault (deps : Externals L) (readLeaf : Shape L → Value → Option (Datum L)) : Prop :=
  ∀ shape value datum, deps.fromValue shape value = .ok datum ↔
    readAs readLeaf .deserializer shape value = some datum

/-- A reader of texts, booleans and integers, which keeps the value it reads. -/
def readScalar : Shape Value → Value → Option (Datum Value)
  | .scalar .string, .string text => some (.leaf (.string text))
  | .scalar .bool, .bool boolean => some (.leaf (.bool boolean))
  | .scalar scalar, .int number =>
    match scalar.integerType with
    | some (signed, bits) =>
      if InRange signed bits number then some (.leaf (.int number)) else none
    | none => none
  | _, _ => none

/-- ASCII tables and a deserializer of texts, booleans and integers. -/
def scalarExternals : Externals Value where
  tables := .ascii
  parseF64 _ := none
  parseJson _ := none
  fromValue shape value :=
    match readAs readScalar .deserializer shape value with
    | some datum => .ok datum
    | none => .error "the value does not have the shape"

theorem readsByDefault_scalarExternals : ReadsByDefault scalarExternals readScalar := by
  intro shape value datum
  show (match readAs readScalar .deserializer shape value with
    | some datum => Except.ok datum
    | none => .error "the value does not have the shape") = .ok datum ↔ _
  cases readAs readScalar .deserializer shape value with
  | none => simp
  | some datum' => simp

/-- What `section` returns is what the resolved tree reads as by the rule for
    sections. -/
theorem AppConfig.sectionOf_ok_iff {deps : Externals L}
    {readLeaf : Shape L → Value → Option (Datum L)} (hdeps : ReadsByDefault deps readLeaf)
    {app : AppConfig} {name : String} {T : StructShape L} {aliases : List (String × String)}
    {tree : Value} {applied : List String}
    (hresolve : (app.resolve deps name T.shape aliases).1 = .ok (tree, applied))
    {datum : Datum L} :
    (app.sectionOf deps name T.shape aliases).1 = .ok datum ↔
      readAs readLeaf .extraction T.shape tree = some datum := by
  rw [← readAs_extraction T.distinct, ← hdeps]
  unfold AppConfig.sectionOf
  generalize app.resolve deps name T.shape aliases = out at hresolve ⊢
  obtain ⟨result, app'⟩ := out
  simp only at hresolve
  subst hresolve
  simp only
  cases missingRequiredField T.shape (addMissingTables T.shape tree) with
  | some field => simp
  | none =>
    cases deps.fromValue T.shape (addMissingTables T.shape tree) with
    | error message => simp
    | ok value => simp

end QuizArena.Config
