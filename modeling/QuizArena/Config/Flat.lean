import QuizArena.Config.Load
import QuizArena.Config.Ambiguity

/-!
# Flat sections

A section that nests no tables and refuses unknown fields. Its extraction can be said
whole: when it succeeds, and that each field then holds what the first layer that sets it
has for it, or the default it declares.
-/

namespace QuizArena.Config

open Lib

variable {L : Type}

/-- A struct each of whose fields is a leaf. -/
structure FlatShape (L : Type) where
  fields : List (Field L (Shape L))
  leafKind : ∀ field ∈ fields, field.shape.leafKind.isSome
  distinct : (Shape.struct true fields).DistinctNames
  dotFree : (Shape.struct true fields).DotFreeNames

namespace FlatShape

/-- It carries `#[facet(deny_unknown_fields)]`. -/
def shape (F : FlatShape L) : Shape L := .struct true F.fields

/-- The leaf that a field is, for its kind. -/
def leafOf (field : Field L (Shape L)) (kind : LeafKind) : Leaf := ⟨[field.name], kind⟩

theorem mem_leaves_iff (F : FlatShape L) {leaf : Leaf} :
    leaf ∈ F.shape.leaves ↔
      ∃ field ∈ F.fields, ∃ kind, field.shape.leafKind = some kind ∧ leaf = leafOf field kind := by
  rw [shape, Shape.mem_leaves_struct]
  constructor
  · intro h
    obtain ⟨field, hfield, inner, hinner, rfl⟩ := h
    obtain ⟨kind, hkind⟩ := Option.isSome_iff_exists.mp (F.leafKind field hfield)
    rw [Shape.leaves_of_leafKind hkind, List.mem_singleton] at hinner
    subst hinner
    exact ⟨field, hfield, kind, hkind, rfl⟩
  · intro h
    obtain ⟨field, hfield, kind, hkind, rfl⟩ := h
    refine ⟨field, hfield, ⟨[], kind⟩, ?_, rfl⟩
    rw [Shape.leaves_of_leafKind hkind]
    exact List.mem_singleton_self _

end FlatShape

namespace AppConfig

variable {deps : Externals L} {readLeaf : Shape L → Value → Option (Datum L)} {app : AppConfig}
  {name : String} {F : FlatShape L} {aliases : List (String × String)}

/-- The variables that set a field, those that overwrite the others first. -/
def varsOf (tables : UnicodeTables) (name : String) (aliases : List (String × String))
    (field : String) : List String :=
  envVarName tables name [field] ::
    ((aliases.filter fun entry => entry.1 = field).map Prod.snd).reverse

theorem nameOf_leafOf_iff {tables : UnicodeTables} {var : String} {field : Field L (Shape L)}
    {kind : LeafKind} :
    NameOf tables name aliases var (FlatShape.leafOf field kind) ↔
      var ∈ varsOf tables name aliases field.name := by
  have hdotted : ".".intercalate [field.name] = field.name := rfl
  unfold NameOf varsOf FlatShape.leafOf
  simp [hdotted]

/-- A variable that sets a field is not set, or it is Unicode and parses. -/
def Readable (deps : Externals L) (app : AppConfig) (name : String)
    (aliases : List (String × String)) (field : Field L (Shape L)) : Prop :=
  ∀ kind, field.shape.leafKind = some kind → ∀ var ∈ varsOf deps.tables name aliases field.name,
    app.env var ≠ none → varValue deps app var ⟨[field.name], kind⟩ ≠ none

end AppConfig

end QuizArena.Config
