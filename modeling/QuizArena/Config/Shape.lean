import QuizArena.Lib.KeyedTree
import Mathlib.Data.Finset.Basic
import Mathlib.Data.List.Pairwise

/-!
# Shapes and leaves

`Shape` is what the configuration reads off a type's `facet` shape: whether it is
a struct with named fields, an option, a sequence, a map, a scalar or something
else that is taken as text. `collectLeaves` is `collect_leaves`, the walk down to
the fields that hold a value rather than a table. Shapes are finite trees, which
leaves out a struct that contains itself behind a pointer.

The lemmas say where leaves lie: never at the root of a struct, only along field
names, and never one on the way to another.
-/

namespace QuizArena.Config

open Lib

variable {L : Type}

/-- `facet::ScalarType`. -/
inductive ScalarType where
  | unit | bool | char | str | string | cowStr
  | f32 | f64
  | u8 | u16 | u32 | u64 | u128 | usize
  | i8 | i16 | i32 | i64 | i128 | isize
  | constTypeId
  | socketAddr | ipAddr | ipv4Addr | ipv6Addr
  deriving DecidableEq, Repr

/-- The signedness and width of an integer type of at most 64 bits. -/
def ScalarType.integerType : ScalarType → Option (Bool × Nat)
  | .u8 => some (false, 8)
  | .u16 => some (false, 16)
  | .u32 => some (false, 32)
  | .u64 | .usize => some (false, 64)
  | .i8 => some (true, 8)
  | .i16 => some (true, 16)
  | .i32 => some (true, 32)
  | .i64 | .isize => some (true, 64)
  | _ => none

/-- The `facet::Def`s that are read from a list. An array has a fixed size. -/
inductive SequenceDef where
  | list
  | array (size : Nat)
  | slice
  | set
  deriving DecidableEq, Repr

/-- Whether a list of the length can be read. -/
def SequenceDef.takes : SequenceDef → Nat → Bool
  | .array size, length => length = size
  | .list, _ | .slice, _ | .set, _ => true

/-- A value of a configuration type, over the values `L` of its leaf types. A set is given by
    the items it is made of. -/
inductive Datum (L : Type) where
  | leaf (value : L)
  | record (fields : List (String × Datum L))
  | absent
  | present (value : Datum L)
  | sequence (length : Nat) (items : Fin length → Datum L)
  | map (keys : Finset String) (entries : {k // k ∈ keys} → Datum L)

/-- `facet::Field`, of a struct whose field types have shapes in `S`. -/
structure Field (L S : Type) where
  /-- `Field::effective_name`. -/
  name : String
  /-- `Field::shape`. -/
  shape : S
  /-- The default declared with `#[facet(default = ...)]`. -/
  default : Option (Datum L)
  /-- The `Default` of the field's type, which only the deserializer consults. -/
  typeDefault : Option (Datum L)

/-- `facet::Shape`. `denyUnknown` is `#[facet(deny_unknown_fields)]`, which only
    the deserializer consults; `other` stands for enums, tuple structs and every
    other type that is neither a scalar nor one of the named containers. -/
inductive Shape (L : Type) where
  | struct (denyUnknown : Bool) (fields : List (Field L (Shape L)))
  | option (inner : Shape L)
  | sequence (kind : SequenceDef) (item : Shape L)
  | map (value : Shape L)
  | scalar (scalar : ScalarType)
  | other

namespace Shape

/-- Induction over a shape, with a hypothesis for every field of a struct. -/
@[elab_as_elim, induction_eliminator]
theorem ind {motive : Shape L → Prop}
    (struct : ∀ denyUnknown fields, (∀ field ∈ fields, motive field.shape) →
      motive (.struct denyUnknown fields))
    (option : ∀ inner, motive inner → motive (.option inner))
    (sequence : ∀ kind item, motive item → motive (.sequence kind item))
    (map : ∀ value, motive value → motive (.map value))
    (scalar : ∀ s, motive (.scalar s))
    (other : motive .other) : ∀ shape, motive shape := fun shape =>
  @Shape.rec L motive (fun fields => ∀ field ∈ fields, motive field.shape)
    (fun field => motive field.shape) struct option sequence map scalar other
    (by simp) (fun _ _ ihHead ihTail => List.forall_mem_cons.mpr ⟨ihHead, ihTail⟩)
    (fun _ _ _ _ ih => ih) shape

/-- `named_fields`: the fields of a struct with named fields. -/
def namedFields : Shape L → Option (List (Field L (Shape L)))
  | .struct _ fields => some fields
  | _ => none

/-- Whether the shape is `Def::Option`. -/
def isOption : Shape L → Bool
  | .option _ => true
  | _ => false

/-- Every struct in the shape has fields with the property. -/
inductive EveryStruct (P : List (Field L (Shape L)) → Prop) : Shape L → Prop where
  | struct {denyUnknown : Bool} {fields : List (Field L (Shape L))} :
      P fields → (∀ field ∈ fields, EveryStruct P field.shape) →
      EveryStruct P (.struct denyUnknown fields)
  | option {inner : Shape L} : EveryStruct P inner → EveryStruct P (.option inner)
  | sequence {kind : SequenceDef} {item : Shape L} :
      EveryStruct P item → EveryStruct P (.sequence kind item)
  | map {value : Shape L} : EveryStruct P value → EveryStruct P (.map value)
  | scalar {scalar : ScalarType} : EveryStruct P (.scalar scalar)
  | other : EveryStruct P .other

/-- No struct in the shape has two fields of one name. -/
def DistinctNames (shape : Shape L) : Prop :=
  shape.EveryStruct fun fields => (fields.map Field.name).Nodup

/-- No field name in the shape has a dot in it. -/
def DotFreeNames (shape : Shape L) : Prop :=
  shape.EveryStruct fun fields => ∀ field ∈ fields, '.' ∉ field.name.toList

/-- A path that follows field names, an option standing for what is inside. -/
inductive HasFieldPath : Shape L → List String → Prop where
  | nil (shape : Shape L) : HasFieldPath shape []
  | option {inner : Shape L} {path : List String} :
      HasFieldPath inner path → HasFieldPath (.option inner) path
  | field {denyUnknown : Bool} {fields : List (Field L (Shape L))} {path : List String}
      (field : Field L (Shape L)) : field ∈ fields → HasFieldPath field.shape path →
      HasFieldPath (.struct denyUnknown fields) (field.name :: path)

end Shape

/-- How the text of an environment variable is read. -/
inductive LeafKind where
  /-- Parsed as exactly this type. -/
  | scalar (scalar : ScalarType)
  /-- A JSON array. -/
  | list
  /-- Taken literally. -/
  | text
  deriving DecidableEq, Repr

/-- A field an environment variable can set: where it sits in the section and how
    its text is read. -/
structure Leaf where
  path : List String
  kind : LeafKind
  deriving DecidableEq, Repr

mutual

/-- `collect_leaves`, with the leaves in the order they are pushed. -/
def collectLeaves : Shape L → List String → List Leaf
  -- an optional field is set the way its inner type is
  | .option inner, path => collectLeaves inner path
  | .struct _ fields, path => collectFieldLeaves fields path
  | .scalar .unit, _ => []
  | .map _, _ => []
  | .scalar scalar, path => [⟨path, .scalar scalar⟩]
  | .sequence _ _, path => [⟨path, .list⟩]
  | .other, path => [⟨path, .text⟩]
termination_by structural shape => shape

/-- The loop of `collect_leaves` over the fields of a struct. -/
def collectFieldLeaves : List (Field L (Shape L)) → List String → List Leaf
  | [], _ => []
  | ⟨name, shape, _, _⟩ :: fields, path =>
    collectLeaves shape (path ++ [name]) ++ collectFieldLeaves fields path
termination_by structural fields => fields

end

/-- The leaves of a section of the shape. -/
def Shape.leaves (shape : Shape L) : List Leaf := collectLeaves shape []

theorem collectFieldLeaves_eq (fields : List (Field L (Shape L))) (path : List String) :
    collectFieldLeaves fields path =
      fields.flatMap fun field => collectLeaves field.shape (path ++ [field.name]) := by
  induction fields with
  | nil => rfl
  | cons field fields ih =>
    rw [List.flatMap_cons, ← ih]
    rfl

/-- The walk only puts the path it starts from in front. -/
theorem collectLeaves_eq_map (shape : Shape L) (path : List String) :
    collectLeaves shape path = shape.leaves.map fun leaf => ⟨path ++ leaf.path, leaf.kind⟩ := by
  unfold Shape.leaves
  induction shape generalizing path with
  | struct denyUnknown fields ih =>
    simp only [collectLeaves, collectFieldLeaves_eq, List.map_flatMap]
    refine List.flatMap_congr fun field hfield => ?_
    rw [ih field hfield (path ++ [field.name]), ih field hfield ([] ++ [field.name])]
    simp
  | option inner ih => exact ih path
  | scalar s => cases s <;> simp [collectLeaves]
  | sequence | map | other => simp [collectLeaves]

namespace Shape

theorem leaves_struct (denyUnknown : Bool) (fields : List (Field L (Shape L))) :
    (struct denyUnknown fields).leaves = fields.flatMap fun field =>
      field.shape.leaves.map fun leaf => ⟨field.name :: leaf.path, leaf.kind⟩ := by
  unfold leaves
  rw [collectLeaves, collectFieldLeaves_eq]
  refine List.flatMap_congr fun field _ => ?_
  rw [collectLeaves_eq_map]
  rfl

theorem mem_leaves_struct {denyUnknown : Bool} {fields : List (Field L (Shape L))} {leaf : Leaf} :
    leaf ∈ (struct denyUnknown fields).leaves ↔ ∃ field ∈ fields, ∃ inner ∈ field.shape.leaves,
      leaf = ⟨field.name :: inner.path, inner.kind⟩ := by
  rw [leaves_struct, List.mem_flatMap]
  simp only [List.mem_map, eq_comm]

/-- A struct is a table, so no leaf lies at its root. -/
theorem path_ne_nil {shape : Shape L} {fields : List (Field L (Shape L))}
    (hshape : shape.namedFields = some fields) {leaf : Leaf} (h : leaf ∈ shape.leaves) :
    leaf.path ≠ [] := by
  cases shape with
  | struct denyUnknown fields' =>
    obtain ⟨field, _, inner, _, rfl⟩ := mem_leaves_struct.mp h
    exact List.cons_ne_nil _ _
  | option | sequence | map | scalar | other => simp [namedFields] at hshape

/-- Every segment on the way to a leaf is a field name of the struct there. -/
theorem hasFieldPath_of_leaf {shape : Shape L} {leaf : Leaf} (h : leaf ∈ shape.leaves)
    {path : List String} (hpath : path <+: leaf.path) : shape.HasFieldPath path := by
  induction shape generalizing leaf path with
  | struct denyUnknown fields ih =>
    obtain ⟨field, hfield, inner, hinner, rfl⟩ := mem_leaves_struct.mp h
    cases path with
    | nil => exact .nil _
    | cons key path =>
      obtain ⟨rfl, hrest⟩ := List.cons_prefix_cons.mp hpath
      exact .field field hfield (ih field hfield hinner hrest)
  | option inner ih => exact .option (ih h hpath)
  | scalar s =>
    have hnil : leaf.path = [] := by
      revert h
      cases s <;> simp +contextual [leaves, collectLeaves]
    rw [hnil, List.prefix_nil] at hpath
    rw [hpath]
    exact .nil _
  | map value => simp [leaves, collectLeaves] at h
  | sequence kind item | other =>
    simp only [leaves, collectLeaves, List.mem_singleton] at h
    subst h
    rw [List.prefix_nil] at hpath
    rw [hpath]
    exact .nil _

/-- No leaf lies on the way to another one. -/
theorem pairwise_leaves {shape : Shape L} (h : shape.DistinctNames) :
    shape.leaves.Pairwise fun leaf leaf' => KeyedTree.Incomparable leaf.path leaf'.path := by
  induction shape with
  | struct denyUnknown fields ih =>
    cases h with
    | struct hnodup hfields =>
    rw [leaves_struct, List.pairwise_flatMap]
    constructor
    · intro field hfield
      rw [List.pairwise_map]
      refine (ih field hfield (hfields field hfield)).imp fun hinc => ?_
      exact ⟨fun hp => hinc.1 (List.cons_prefix_cons.mp hp).2,
        fun hp => hinc.2 (List.cons_prefix_cons.mp hp).2⟩
    · rw [List.Nodup, List.pairwise_map] at hnodup
      refine hnodup.imp fun {field field'} hne => ?_
      intro leaf hleaf leaf' hleaf'
      obtain ⟨inner, _, rfl⟩ := List.mem_map.mp hleaf
      obtain ⟨inner', _, rfl⟩ := List.mem_map.mp hleaf'
      exact ⟨fun hp => hne (List.cons_prefix_cons.mp hp).1,
        fun hp => hne (List.cons_prefix_cons.mp hp).1.symm⟩
  | option inner ih =>
    cases h with
    | option hinner => exact ih hinner
  | scalar s => cases s <;> simp [leaves, collectLeaves]
  | sequence | map | other => simp [leaves, collectLeaves]

/-- The shape of the field at a path that follows field names, an option standing for
    what is inside. -/
inductive FieldAt : Shape L → List String → Shape L → Prop where
  | here (shape : Shape L) : FieldAt shape [] shape
  | option {inner target : Shape L} {path : List String} :
      FieldAt inner path target → FieldAt (.option inner) path target
  | field {denyUnknown : Bool} {fields : List (Field L (Shape L))} {path : List String}
      {target : Shape L} (field : Field L (Shape L)) : field ∈ fields →
      FieldAt field.shape path target →
      FieldAt (.struct denyUnknown fields) (field.name :: path) target

/-- The kind of leaf that `collect_leaves` makes of a shape, when it makes one of it. -/
def leafKind : Shape L → Option LeafKind
  | .struct _ _ | .option _ | .map _ | .scalar .unit => none
  | .scalar s => some (.scalar s)
  | .sequence _ _ => some .list
  | .other => some .text

theorem leaves_of_leafKind {shape : Shape L} {kind : LeafKind} (h : shape.leafKind = some kind) :
    shape.leaves = [⟨[], kind⟩] := by
  cases shape with
  | scalar s => cases s <;> cases h <;> rfl
  | sequence | other =>
    cases h
    rfl
  | struct | option | map => cases h

/-- The leaves are the fields whose shapes make one, wherever they are nested. -/
theorem mem_leaves_iff {shape : Shape L} {leaf : Leaf} :
    leaf ∈ shape.leaves ↔
      ∃ target, shape.FieldAt leaf.path target ∧ target.leafKind = some leaf.kind := by
  constructor
  · intro h
    induction shape generalizing leaf with
    | struct denyUnknown fields ih =>
      obtain ⟨field, hfield, inner, hinner, rfl⟩ := mem_leaves_struct.mp h
      obtain ⟨target, htarget, hkind⟩ := ih field hfield hinner
      exact ⟨target, .field field hfield htarget, hkind⟩
    | option inner ih =>
      obtain ⟨target, htarget, hkind⟩ := ih h
      exact ⟨target, .option htarget, hkind⟩
    | scalar s =>
      by_cases hunit : s = .unit
      · subst hunit
        exact absurd h List.not_mem_nil
      · have hkind : (scalar s : Shape L).leafKind = some (.scalar s) := by
          cases s <;> first | rfl | exact absurd rfl hunit
        rw [leaves_of_leafKind hkind, List.mem_singleton] at h
        subst h
        exact ⟨_, .here _, hkind⟩
    | map value => exact absurd h List.not_mem_nil
    | sequence kind item | other =>
      rw [leaves_of_leafKind rfl, List.mem_singleton] at h
      subst h
      exact ⟨_, .here _, rfl⟩
  · rintro ⟨target, htarget, hkind⟩
    obtain ⟨path, kind⟩ := leaf
    simp only at htarget hkind
    induction htarget with
    | here shape =>
      rw [leaves_of_leafKind hkind]
      exact List.mem_singleton_self _
    | option _ ih => exact ih hkind
    | field field hfield _ ih =>
      exact mem_leaves_struct.mpr ⟨field, hfield, ⟨_, kind⟩, ih hkind, rfl⟩

end Shape

end QuizArena.Config
