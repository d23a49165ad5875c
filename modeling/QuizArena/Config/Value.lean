import Mathlib.Algebra.Ring.Int.Defs
import Mathlib.Algebra.Ring.Nat
import Mathlib.Data.Finset.Basic
import Mathlib.Data.Finset.Insert
import QuizArena.Lib.KeyedTree

/-!
# The merged tree

`ConfigValue` is the value the `config` crate hands out for the merged file
layers and `Value` the `facet_value` value the section is deserialized through.
A table is a finite set of keys with a value for each, so that two tables with
the same entries are equal whatever order they were written in. `toFacetValue`
is `to_facet_value`; `Value` is a `KeyedTree`, which makes the path lemmas of
the library available for it.
-/

namespace QuizArena.Config

open Lib

/-- An IEEE 754 double, by its bits. -/
abbrev F64 := BitVec 64

/-- `n as f64` for a natural number below `2 ^ 1023`, rounding half to even.
    A carry out of the significand moves the exponent up by itself. -/
def f64OfNat (n : Nat) : F64 :=
  if n = 0 then 0 else
    let exponent := n.log2
    let significand :=
      if exponent ≤ 52 then n <<< (52 - exponent)
      else
        let shift := exponent - 52
        let quotient := n >>> shift
        let remainder := n % 2 ^ shift
        let half := 2 ^ (shift - 1)
        if half < remainder ∨ (remainder = half ∧ quotient % 2 = 1) then quotient + 1
        else quotient
    BitVec.ofNat 64 (((exponent + 1023) <<< 52) + (significand - 2 ^ 52))

/-- `n as f64` for the 128-bit integers. -/
def f64OfInt (n : Int) : F64 :=
  if n < 0 then f64OfNat n.natAbs ||| BitVec.ofNat 64 (2 ^ 63) else f64OfNat n.natAbs

/-- `config::Value`, by its `ValueKind`. -/
inductive ConfigValue where
  | nil
  | boolean (boolean : Bool)
  | i64 (number : Int64)
  | u64 (number : UInt64)
  | i128 (number : BitVec 128)
  | u128 (number : BitVec 128)
  | float (number : F64)
  | string (string : String)
  | table (keys : Finset String) (entries : {k // k ∈ keys} → ConfigValue)
  | array (length : Nat) (items : Fin length → ConfigValue)

/-- `facet_value::Value`. The number a variant holds is kept by its value, which
    is how `facet_value` compares the integers it holds as `i64` or `u64`. -/
inductive Value where
  | null
  | bool (boolean : Bool)
  | int (number : Int)
  | float (number : F64)
  | string (string : String)
  | array (length : Nat) (items : Fin length → Value)
  | object (keys : Finset String) (entries : {k // k ∈ keys} → Value)

/-- `facet_value::VObject`. -/
structure VObject where
  keys : Finset String
  entries : {k // k ∈ keys} → Value

namespace VObject

/-- `VObject::new`. -/
def new : VObject := ⟨∅, fun k => absurd k.2 (Finset.notMem_empty k.1)⟩

/-- `VObject::get`. -/
def get (table : VObject) (key : String) : Option Value :=
  if h : key ∈ table.keys then some (table.entries ⟨key, h⟩) else none

/-- `VObject::insert`. -/
def insert (table : VObject) (key : String) (value : Value) : VObject :=
  ⟨Insert.insert key table.keys, fun k =>
    if h : k.1 ≠ key ∧ k.1 ∈ table.keys then table.entries ⟨k.1, h.2⟩ else value⟩

@[simp] theorem get_new (key : String) : new.get key = none := by
  simp [get, new]

@[simp] theorem get_insert_same (table : VObject) (key : String) (value : Value) :
    (table.insert key value).get key = some value := by
  simp [get, insert]

@[simp] theorem get_insert_ne (table : VObject) {key key' : String} (value : Value)
    (h : key' ≠ key) : (table.insert key value).get key' = table.get key' := by
  by_cases hk : key' ∈ table.keys
  · simp [get, insert, hk, h]
  · simp [get, insert, hk, h]

theorem mem_keys_iff (table : VObject) (key : String) :
    key ∈ table.keys ↔ table.get key ≠ none := by
  by_cases hk : key ∈ table.keys
  · simp [get, hk]
  · simp [get, hk]

/-- A table is its entries. -/
theorem ext_get {table table' : VObject} (h : ∀ key, table.get key = table'.get key) :
    table = table' := by
  have hkeys : table.keys = table'.keys := by
    refine Finset.ext fun key => ?_
    rw [mem_keys_iff, mem_keys_iff, h]
  obtain ⟨keys, entries⟩ := table
  obtain ⟨keys', entries'⟩ := table'
  simp only at hkeys
  subst hkeys
  congr 1
  funext k
  have hk := h k.1
  simpa [get, k.2] using hk

end VObject

namespace Value

/-- `Value::as_object`. -/
def asObject : Value → Option VObject
  | .object keys entries => some ⟨keys, entries⟩
  | _ => none

/-- `Value::is_object`. -/
def isObject (value : Value) : Bool := value.asObject.isSome

/-- `VObject::into`. -/
def ofObject (table : VObject) : Value := .object table.keys table.entries

@[simp] theorem asObject_ofObject (table : VObject) : (ofObject table).asObject = some table := rfl

@[simp] theorem isObject_ofObject (table : VObject) : (ofObject table).isObject = true := rfl

theorem eq_ofObject_of_asObject {value : Value} {table : VObject}
    (h : value.asObject = some table) : value = ofObject table := by
  cases value with
  | object keys entries =>
    simp only [asObject, Option.some.injEq] at h
    subst h
    rfl
  | null | bool | int | float | string | array => simp [asObject] at h

theorem isObject_iff {value : Value} :
    value.isObject = true ↔ ∃ table, value = ofObject table := by
  constructor
  · intro h
    obtain ⟨table, ht⟩ := Option.isSome_iff_exists.mp h
    exact ⟨table, eq_ofObject_of_asObject ht⟩
  · rintro ⟨table, rfl⟩
    rfl

instance : KeyedTree String Value where
  IsTable value := value.isObject = true
  decIsTable value := inferInstanceAs (Decidable (value.isObject = true))
  child value key := value.asObject.bind fun table => table.get key
  put value key child := match value.asObject with
    | some table => ofObject (table.insert key child)
    | none => value
  empty := ofObject VObject.new
  child_leaf := by
    intro value key h
    rw [Bool.not_eq_true, isObject, Option.isSome_eq_false_iff, Option.isNone_iff_eq_none] at h
    rw [h]
    rfl
  child_empty := by simp
  isTable_empty := rfl
  isTable_put := by
    rintro value key child h
    obtain ⟨table, rfl⟩ := isObject_iff.mp h
    simp
  child_put_same := by
    rintro value key child h
    obtain ⟨table, rfl⟩ := isObject_iff.mp h
    simp
  child_put_ne := by
    rintro value key key' child h hne
    obtain ⟨table, rfl⟩ := isObject_iff.mp h
    simp [hne]

/-- The value at a path of keys, or its absence. -/
abbrev readPath (value : Value) (path : List String) : Option Value :=
  KeyedTree.readPath value path

@[simp] theorem child_ofObject (table : VObject) (key : String) :
    KeyedTree.child (ofObject table) key = table.get key := rfl

theorem isTable_iff {value : Value} :
    KeyedTree.IsTable value ↔ ∃ table, value = ofObject table := isObject_iff

@[simp] theorem isTable_ofObject (table : VObject) : KeyedTree.IsTable (ofObject table) := rfl

@[simp] theorem put_ofObject (table : VObject) (key : String) (child : Value) :
    KeyedTree.put (ofObject table) key child = ofObject (table.insert key child) := rfl

instance : KeyedTree.Extensional String Value where
  ext := by
    intro value value' h h' hchild
    obtain ⟨table, rfl⟩ := isTable_iff.mp h
    obtain ⟨table', rfl⟩ := isTable_iff.mp h'
    exact congrArg ofObject (VObject.ext_get hchild)

/-- What a node shows of itself: nothing but being a table, or its whole value. -/
def head (value : Value) : Option Value := if value.isObject then none else some value

@[simp] theorem head_ofObject (table : VObject) : (ofObject table).head = none := rfl

theorem head_eq_none {value : Value} (h : value.head = none) :
    ∃ table, value = ofObject table := by
  unfold head at h
  split at h
  · exact isObject_iff.mp (by assumption)
  · cases h

theorem eq_of_head_eq_some {value shown : Value} (h : value.head = some shown) :
    value = shown := by
  unfold head at h
  split at h
  · cases h
  · exact Option.some.inj h

/-- Two trees that show the same at every path are equal. -/
theorem eq_of_reads {a b : Value}
    (h : ∀ path, (a.readPath path).map head = (b.readPath path).map head) : a = b := by
  induction a generalizing b with
  | object keys entries ih =>
    have hroot := h []
    simp only [KeyedTree.readPath_nil, Option.map_some, Option.some.injEq] at hroot
    obtain ⟨table, rfl⟩ := head_eq_none hroot.symm
    have hget : ∀ key, VObject.get ⟨keys, entries⟩ key = table.get key := ?_
    · exact congrArg ofObject (VObject.ext_get hget)
    intro key
    have hchild : ∀ path, ((VObject.get ⟨keys, entries⟩ key).bind (readPath · path)).map head =
        ((table.get key).bind (readPath · path)).map head := fun path => h (key :: path)
    cases hb : table.get key with
    | none =>
      have := hchild []
      rw [hb] at this
      cases ha : VObject.get ⟨keys, entries⟩ key with
      | none => rfl
      | some child => rw [ha] at this; cases this
    | some child =>
      by_cases hk : key ∈ keys
      · have ha : VObject.get ⟨keys, entries⟩ key = some (entries ⟨key, hk⟩) := by
          simp [VObject.get, hk]
        rw [ha]
        refine congrArg some (ih ⟨key, hk⟩ fun path => ?_)
        have := hchild path
        rw [ha, hb] at this
        exact this
      · have ha : VObject.get ⟨keys, entries⟩ key = none := by simp [VObject.get, hk]
        have := hchild []
        rw [ha, hb] at this
        cases this
  | null | bool _ | int _ | float _ | string _ | array _ _ _ =>
    have hroot := h []
    simp only [KeyedTree.readPath_nil, Option.map_some, Option.some.injEq] at hroot
    exact (eq_of_head_eq_some hroot.symm).symm

end Value

/-- `to_facet_value`: a value of the merged file layers. -/
def toFacetValue : ConfigValue → Value
  | .nil => .null
  | .boolean boolean => .bool boolean
  | .i64 number => .int number.toInt
  | .u64 number => .int number.toNat
  -- TOML integers are 64 bit, a wider one that does not fit becomes a float
  | .i128 number =>
    if -2 ^ 63 ≤ number.toInt ∧ number.toInt < 2 ^ 63 then .int number.toInt
    else .float (f64OfInt number.toInt)
  | .u128 number =>
    if number.toNat < 2 ^ 64 then .int number.toNat else .float (f64OfInt number.toNat)
  | .float number => .float number
  | .string string => .string string
  | .table keys entries => .object keys fun k => toFacetValue (entries k)
  | .array length items => .array length fun i => toFacetValue (items i)

namespace ConfigValue

/-- Whether the value is a `ValueKind::Table`. -/
def isTable : ConfigValue → Bool
  | .table _ _ => true
  | _ => false

/-- The value of the file layers at a path of keys. -/
def readPath : ConfigValue → List String → Option ConfigValue
  | value, [] => some value
  | .table keys entries, key :: path =>
    if h : key ∈ keys then (entries ⟨key, h⟩).readPath path else none
  | _, _ :: _ => none

/-- The conversion keeps every path. -/
theorem readPath_toFacetValue (value : ConfigValue) (path : List String) :
    (toFacetValue value).readPath path = (value.readPath path).map toFacetValue := by
  induction path generalizing value with
  | nil => cases value <;> rfl
  | cons key path ih =>
    cases value with
    | table keys entries =>
      by_cases hk : key ∈ keys
      · have hchild : KeyedTree.child (toFacetValue (.table keys entries)) key =
            some (toFacetValue (entries ⟨key, hk⟩)) := by
          simp [toFacetValue, KeyedTree.child, Value.asObject, VObject.get, hk]
        rw [Value.readPath, KeyedTree.readPath_cons, hchild]
        simpa [readPath, hk] using ih (entries ⟨key, hk⟩)
      · have hchild : KeyedTree.child (toFacetValue (.table keys entries)) key = none := by
          simp [toFacetValue, KeyedTree.child, Value.asObject, VObject.get, hk]
        rw [Value.readPath, KeyedTree.readPath_cons, hchild]
        simp [readPath, hk]
    | i128 number =>
      simp only [toFacetValue]
      split <;> rfl
    | u128 number =>
      simp only [toFacetValue]
      split <;> rfl
    | nil | boolean | i64 | u64 | float | string | array => rfl

theorem isObject_toFacetValue (value : ConfigValue) :
    (toFacetValue value).isObject = value.isTable := by
  cases value with
  | i128 number =>
    simp only [toFacetValue]
    split <;> rfl
  | u128 number =>
    simp only [toFacetValue]
    split <;> rfl
  | nil | boolean | i64 | u64 | float | string | table | array => rfl

end ConfigValue

end QuizArena.Config
