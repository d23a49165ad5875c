import QuizArena.Config.Precedence

/-!
# Integer overrides

A leaf of an integer type is parsed as exactly that type, so that a value out of its
range is refused where the variable is known. This holds of the types of at most 64
bits. The two wider ones have no arm of their own in `parse_env_value` and are taken
literally like texts.
-/

namespace QuizArena.Config

variable {L : Type}

/-- The signedness and width of every integer type, on a target of 64 bits. -/
def ScalarType.integerWidth : ScalarType → Option (Bool × Nat)
  | .u128 => some (false, 128)
  | .i128 => some (true, 128)
  | scalar => scalar.integerType

/-- A variable of the leaf is accepted exactly when it is a numeral of an integer of the
    type, as that integer. Any other is refused, whatever the tree would have been. -/
structure ChecksInteger (deps : Externals L) (signed : Bool) (bits : Nat) (leaf : Leaf) :
    Prop where
  accepts : ∀ raw value, parseEnvValue deps raw leaf.kind = .ok value ↔
    ∃ n, IsNumeral signed raw n ∧ InRange signed bits n ∧ value = .int n
  refuses : ∀ raw, (¬ ∃ n, IsNumeral signed raw n ∧ InRange signed bits n) →
    ∀ (app : AppConfig) (var name : String), app.env var = some (.unicode raw) →
      (app.claim var name leaf.path).1 = .ok () →
      ∀ tree, (app.applyEnv deps tree var name leaf).1 = .error (.invalidValue var expectedInteger)

/-- The arm of an integer type that has one. -/
theorem parseEnvValue_of_integerType (deps : Externals L) (raw : String) {scalar : ScalarType}
    {signed : Bool} {bits : Nat} (h : scalar.integerType = some (signed, bits)) :
    parseEnvValue deps raw (.scalar scalar) = parseIntegerValue signed bits raw := by
  cases scalar <;> cases h <;> rfl

theorem parseIntegerValue_ok_iff {signed : Bool} {bits : Nat} {raw : String} {value : Value} :
    parseIntegerValue signed bits raw = .ok value ↔
      ∃ n, IsNumeral signed raw n ∧ InRange signed bits n ∧ value = .int n := by
  have hparse : parseIntegerValue signed bits raw = .ok value ↔
      ∃ n, parseInteger signed bits raw = some n ∧ value = .int n := by
    unfold parseIntegerValue
    cases parseInteger signed bits raw with
    | none => simp [parseOr]
    | some n => simp [parseOr, eq_comm]
  rw [hparse]
  simp only [parseInteger_eq_some_iff, and_assoc]

theorem parseIntegerValue_error {signed : Bool} {bits : Nat} {raw : String}
    (h : ¬ ∃ n, IsNumeral signed raw n ∧ InRange signed bits n) :
    parseIntegerValue signed bits raw = .error expectedInteger := by
  have hnone : parseInteger signed bits raw = none := by
    rw [Option.eq_none_iff_forall_ne_some]
    intro n hn
    exact h ⟨n, parseInteger_eq_some_iff.mp hn⟩
  rw [parseIntegerValue, hnone]
  rfl

/-- A variable that does not parse is refused once its name is granted, and the tree has
    no part in it. -/
theorem applyEnv_of_parse_error {deps : Externals L} {app : AppConfig} {var name raw : String}
    {leaf : Leaf} (henv : app.env var = some (.unicode raw))
    (hclaim : (app.claim var name leaf.path).1 = .ok ()) {expected : String}
    (hparse : parseEnvValue deps raw leaf.kind = .error expected) (tree : Value) :
    (app.applyEnv deps tree var name leaf).1 = .error (.invalidValue var expected) := by
  rcases AppConfig.claim_cases app var name leaf.path with
    ⟨app', hgranted, henv', _⟩ | ⟨existing, _, _, hrefused⟩
  · unfold AppConfig.applyEnv
    simp only [hgranted, henv', henv, OsString.toStr, hparse]
  · rw [hrefused] at hclaim
    cases hclaim

/-- A type with an arm is checked. -/
theorem checksInteger_of_integerType (deps : Externals L) {scalar : ScalarType} {signed : Bool}
    {bits : Nat} (h : scalar.integerType = some (signed, bits)) (path : List String) :
    ChecksInteger deps signed bits ⟨path, .scalar scalar⟩ where
  accepts raw value := by
    rw [parseEnvValue_of_integerType deps raw h]
    exact parseIntegerValue_ok_iff
  refuses raw hraw app var name henv hclaim tree := by
    apply applyEnv_of_parse_error henv hclaim
    rw [parseEnvValue_of_integerType deps raw h]
    exact parseIntegerValue_error hraw

/-- The types of at most 64 bits are those that have an arm. -/
theorem ScalarType.integerType_of_width {scalar : ScalarType} {signed : Bool} {bits : Nat}
    (h : scalar.integerWidth = some (signed, bits)) :
    scalar.integerType = some (signed, bits) ∧ bits ≤ 64 ∨
      scalar.integerType = none ∧ bits = 128 ∧ (scalar = .u128 ∨ scalar = .i128) := by
  cases scalar <;> cases h <;> decide

/-- A type without an arm takes any text literally. -/
theorem not_checksInteger_of_wide (deps : Externals L) {scalar : ScalarType} {signed : Bool}
    {bits : Nat} (h : scalar = .u128 ∨ scalar = .i128) (path : List String) :
    ¬ ChecksInteger deps signed bits ⟨path, .scalar scalar⟩ := by
  intro hchecks
  have htext : parseEnvValue deps "" (.scalar scalar) = .ok (.string "") := by
    rcases h with rfl | rfl <;> rfl
  obtain ⟨n, _, _, hvalue⟩ := (hchecks.accepts "" _).mp htext
  cases hvalue

/-- The leaf of a field of an integer type is checked against the type exactly when the
    type has at most 64 bits. -/
theorem integer_override_checked_iff (deps : Externals L) (shape : Shape L) (path : List String)
    (scalar : ScalarType) (hfield : shape.FieldAt path (.scalar scalar)) (signed : Bool)
    (bits : Nat) (hinteger : scalar.integerWidth = some (signed, bits)) :
    ⟨path, .scalar scalar⟩ ∈ shape.leaves ∧
      (ChecksInteger deps signed bits ⟨path, .scalar scalar⟩ ↔ bits ≤ 64) := by
  refine ⟨?_, ?_⟩
  · refine Shape.mem_leaves_iff.mpr ⟨_, hfield, ?_⟩
    cases scalar <;> first | rfl | cases hinteger
  · rcases ScalarType.integerType_of_width hinteger with
      ⟨hnarrow, hbits⟩ | ⟨_, hbits, hwide⟩
    · exact iff_of_true (checksInteger_of_integerType deps hnarrow path) hbits
    · refine iff_of_false (not_checksInteger_of_wide deps hwide path) ?_
      omega

/-- A section with an optional total of 128 bits in a nested table. -/
def ledgerShape {L : Type} : Shape L :=
  .struct true [⟨"account", .struct true
    [⟨"total", .option (.scalar .u128), none, none⟩], none, none⟩]

theorem ledgerShape_total {L : Type} :
    (ledgerShape (L := L)).FieldAt ["account", "total"] (.scalar .u128) :=
  .field _ List.mem_cons_self (.field _ List.mem_cons_self (.option (.here _)))

/-- An environment that sets the total to something that is no number. -/
def ledgerApp : AppConfig :=
  .new (fun _ => .error .notFound) fun var =>
    if var = "QUIZ_ARENA_LEDGER_ACCOUNT_TOTAL" then some (.unicode "many") else none

/-- What is no number is accepted as a total of 128 bits and written as text. -/
theorem wide_total_taken_literally :
    ScalarType.u128.integerWidth = some (false, 128) ∧
      (ledgerShape (L := Unit)).FieldAt ["account", "total"] (.scalar .u128) ∧
      ⟨["account", "total"], .scalar .u128⟩ ∈ (ledgerShape (L := Unit)).leaves ∧
      ¬ ChecksInteger sampleExternals false 128 ⟨["account", "total"], .scalar .u128⟩ ∧
      ∃ tree applied,
        (ledgerApp.resolve sampleExternals "ledger" ledgerShape []).1 = .ok (tree, applied) ∧
        tree.readPath ["account", "total"] = some (.string "many") := by
  refine ⟨rfl, ledgerShape_total, by decide, not_checksInteger_of_wide _ (Or.inl rfl) _, _, _, rfl,
    rfl⟩

theorem integer_override_checked_iff_port :
    ChecksInteger sampleExternals false 16 ⟨["port"], .scalar .u16⟩ :=
  (integer_override_checked_iff sampleExternals sampleShape.shape ["port"] .u16
    (.field _ List.mem_cons_self (.here _)) false 16 rfl).2.mpr (by decide)

end QuizArena.Config
