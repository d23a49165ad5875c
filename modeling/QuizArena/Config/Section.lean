import Mathlib.Logic.Function.Basic
import QuizArena.Parse
import QuizArena.Unicode
import QuizArena.Config.Shape
import QuizArena.Config.Value

/-!
# `AppConfig::section`

The extraction of a section from the merged tree and the environment snapshot:
the aliases first, then the derived variables, then the missing tables, the check
for required fields and the deserializer. `resolve` is the part before the
missing tables. The claimed names are threaded through explicitly, since a
section that fails leaves behind the claims it made.

The code outside the repository that takes part is a parameter: the character
tables, the parsers of floats and JSON, and `facet_value::from_value`.
-/

namespace QuizArena.Config

variable {L : Type}

/-- What the extraction uses from outside the repository. -/
structure Externals (L : Type) where
  tables : UnicodeTables
  /-- `str::parse::<f64>`. -/
  parseF64 : String → Option F64
  /-- `facet_json::from_str`. -/
  parseJson : String → Option Value
  /-- `facet_value::from_value`. -/
  fromValue : Shape L → Value → Except String (Datum L)

/-- `OsString`: the value of an environment variable, which need not be Unicode. -/
inductive OsString where
  | unicode (text : String)
  | bytes (bytes : List UInt8)
  deriving DecidableEq

/-- `OsStr::to_str`. -/
def OsString.toStr : OsString → Option String
  | .unicode text => some text
  | .bytes _ => none

/-- `config::ConfigError`, as far as a lookup distinguishes it. -/
inductive ConfigError where
  | notFound
  | other (message : String)
  deriving DecidableEq

/-- The errors of `section`. -/
inductive SectionError where
  | notTable (name : String)
  | lookup (name : String) (error : String)
  | unknownField (aliasVar field name : String)
  | ambiguous (envName existing target : String)
  | notUnicode (var : String)
  | invalidValue (var expected : String)
  | missingField (name field : String)
  | invalid (name : String) (applied : List String) (error : String)
  /-- One of the `expect`s was reached. -/
  | panicked (message : String)
  deriving DecidableEq

/-- The text of an error, its contexts outermost first. -/
def SectionError.message : SectionError → String
  | .notTable name => "config section `" ++ name ++ "` must be a table"
  | .lookup name error => "invalid config section `" ++ name ++ "`: " ++ error
  | .unknownField aliasVar field name =>
    "alias `" ++ aliasVar ++ "` targets unknown field `" ++ field ++ "` in section `" ++ name ++ "`"
  | .ambiguous envName existing target =>
    "environment variable `" ++ envName ++ "` is ambiguous, it maps to both `" ++ existing ++
      "` and `" ++ target ++ "`"
  | .notUnicode var => "environment variable `" ++ var ++ "` is not valid Unicode"
  | .invalidValue var expected =>
    "invalid value in environment variable `" ++ var ++ "`: " ++ expected
  | .missingField name field =>
    "invalid config section `" ++ name ++ "`: missing required field `" ++ field ++ "`"
  | .invalid name [] error => "invalid config section `" ++ name ++ "`: " ++ error
  | .invalid name applied error =>
    "invalid config section `" ++ name ++ "` after applying " ++ ", ".intercalate applied ++
      ": " ++ error
  | .panicked message => message

/-- `AppConfig`. The merged tree is known by what `Config::get` finds in it. -/
structure AppConfig where
  tree : String → Except ConfigError ConfigValue
  env : String → Option OsString
  /-- The claimed environment variable names with the config path of each. -/
  claimed : String → Option String

/-- `ENV_PREFIX`. -/
def envVarStart : String := "QUIZ_ARENA_"

/-- `env_var_name`. -/
def envVarName (tables : UnicodeTables) (name : String) (path : List String) : String :=
  path.foldl (fun acc segment => acc ++ "_" ++ tables.toUppercase segment)
    (envVarStart ++ tables.toUppercase name)

/-! ## Parsing a variable -/

/-- The generic `parse` inside `parse_env_value`. -/
def parseOr {N : Type} (parsed : Option N) (into : N → Value) (expected : String) :
    Except String Value :=
  match parsed with
  | some number => .ok (into number)
  | none => .error expected

def expectedInteger : String := "expected an integer in range"

/-- The arms of `parse_env_value` for the integer types. -/
def parseIntegerValue (signed : Bool) (bits : Nat) (raw : String) : Except String Value :=
  parseOr (parseInteger signed bits raw) .int expectedInteger

/-- `parse_env_value`. -/
def parseEnvValue (deps : Externals L) (raw : String) : LeafKind → Except String Value
  | .scalar .bool => parseOr (parseBool raw) .bool "expected a boolean"
  | .scalar .u8 => parseIntegerValue false 8 raw
  | .scalar .u16 => parseIntegerValue false 16 raw
  | .scalar .u32 => parseIntegerValue false 32 raw
  | .scalar .u64 | .scalar .usize => parseIntegerValue false 64 raw
  | .scalar .i8 => parseIntegerValue true 8 raw
  | .scalar .i16 => parseIntegerValue true 16 raw
  | .scalar .i32 => parseIntegerValue true 32 raw
  | .scalar .i64 | .scalar .isize => parseIntegerValue true 64 raw
  | .scalar .f32 | .scalar .f64 => parseOr (deps.parseF64 raw) .float "expected a number"
  | .list =>
    match deps.parseJson raw with
    | some (.array length items) => .ok (.array length items)
    | _ => .error "expected a JSON array"
  | .scalar _ | .text => .ok (.string raw)

/-! ## Resolving the environment -/

/-- `insert_at_path`; `none` stands for one of its two `expect`s. -/
def insertAtPath : Value → List String → Value → Option Value
  | _, [], value => some value
  | node, [last], value => node.asObject.map fun table => .ofObject (table.insert last value)
  | node, key :: path, value =>
    node.asObject.bind fun table =>
      -- a scalar the file set where the struct nests a table is replaced
      let child := match table.get key with
        | some child => if child.isObject then child else .ofObject VObject.new
        | none => .ofObject VObject.new
      (insertAtPath child path value).map fun child => .ofObject (table.insert key child)

/-- The config path a variable resolves to. -/
def claimTarget (name : String) (path : List String) : String :=
  if path.isEmpty then name else name ++ "." ++ ".".intercalate path

namespace AppConfig

/-- `AppConfig::new`. -/
def new (tree : String → Except ConfigError ConfigValue) (env : String → Option OsString) :
    AppConfig := ⟨tree, env, fun _ => none⟩

/-- `AppConfig::claim`. -/
def claim (app : AppConfig) (envName name : String) (path : List String) :
    Except SectionError Unit × AppConfig :=
  let target := claimTarget name path
  match app.claimed envName with
  | none => (.ok (), { app with claimed := Function.update app.claimed envName (some target) })
  | some existing =>
    if existing ≠ target then (.error (.ambiguous envName existing target), app) else (.ok (), app)

/-- `AppConfig::apply_env`: the tree it leaves and whether the variable was set. -/
def applyEnv (deps : Externals L) (app : AppConfig) (tree : Value) (var name : String)
    (leaf : Leaf) : Except SectionError (Value × Bool) × AppConfig :=
  match app.claim var name leaf.path with
  | (.error error, app) => (.error error, app)
  | (.ok (), app) =>
    match app.env var with
    | none => (.ok (tree, false), app)
    | some raw =>
      match raw.toStr with
      | none => (.error (.notUnicode var), app)
      | some raw =>
        match parseEnvValue deps raw leaf.kind with
        | .error expected => (.error (.invalidValue var expected), app)
        | .ok value =>
          match insertAtPath tree leaf.path value with
          | none => (.error (.panicked "intermediate nodes are tables"), app)
          | some tree => (.ok (tree, true), app)

/-- The tree and the applied variables of a pass that has got so far. -/
abbrev Pass := Except SectionError (Value × List String) × AppConfig

/-- The loop of `section` over the aliases. -/
def applyAliases (deps : Externals L) (name : String) (leaves : List Leaf) :
    List (String × String) → Value → List String → AppConfig → Pass
  | [], tree, applied, app => (.ok (tree, applied), app)
  | (field, aliasVar) :: aliases, tree, applied, app =>
    match leaves.find? fun leaf => ".".intercalate leaf.path == field with
    | none => (.error (.unknownField aliasVar field name), app)
    | some leaf =>
      match app.applyEnv deps tree aliasVar name leaf with
      | (.error error, app) => (.error error, app)
      | (.ok (tree, isSet), app) =>
        applyAliases deps name leaves aliases tree
          (if isSet then applied ++ [aliasVar] else applied) app

/-- The loop of `section` over the derived variables. -/
def applyDerived (deps : Externals L) (name : String) :
    List Leaf → Value → List String → AppConfig → Pass
  | [], tree, applied, app => (.ok (tree, applied), app)
  | leaf :: leaves, tree, applied, app =>
    let derived := envVarName deps.tables name leaf.path
    match app.applyEnv deps tree derived name leaf with
    | (.error error, app) => (.error error, app)
    | (.ok (tree, isSet), app) =>
      applyDerived deps name leaves tree (if isSet then applied ++ [derived] else applied) app

/-- The first part of `section`: the section of the merged tree as a table. -/
def sectionTree (app : AppConfig) (name : String) : Except SectionError Value :=
  match app.tree name with
  | .ok value =>
    if value.isTable then .ok (toFacetValue value) else .error (.notTable name)
  | .error .notFound => .ok (.ofObject VObject.new)
  | .error (.other error) => .error (.lookup name error)

/-- `AppConfig::section` before the missing tables are completed. -/
def resolve (deps : Externals L) (app : AppConfig) (name : String) (shape : Shape L)
    (aliases : List (String × String)) : Pass :=
  match app.sectionTree name with
  | .error error => (.error error, app)
  | .ok tree =>
    let leaves := shape.leaves
    match applyAliases deps name leaves aliases tree [] app with
    | (.error error, app) => (.error error, app)
    | (.ok (tree, applied), app) => applyDerived deps name leaves tree applied app

end AppConfig

/-! ## Completing and checking the tree -/

mutual

/-- `add_missing_tables`. -/
def addMissingTables : Shape L → Value → Value
  | .struct _ fields, tree =>
    match tree.asObject with
    | some table => .ofObject (addMissingFieldTables fields table)
    | none => tree
  | _, tree => tree
termination_by structural shape => shape

/-- The loop of `add_missing_tables` over the fields of a struct. -/
def addMissingFieldTables : List (Field L (Shape L)) → VObject → VObject
  | [], table => table
  | ⟨key, shape, _, _⟩ :: fields, table =>
    if shape.namedFields.isNone then addMissingFieldTables fields table
    else
      let nested := (table.get key).getD (.ofObject VObject.new)
      addMissingFieldTables fields (table.insert key (addMissingTables shape nested))
termination_by structural fields => fields

end

mutual

/-- `missing_required_field`: the dotted path of the first field that has neither
    a value nor a declared default. -/
def missingRequiredField : Shape L → Value → Option String
  | .struct _ fields, tree => tree.asObject.bind fun table => missingField fields table
  | _, _ => none
termination_by structural shape => shape

/-- The search of `missing_required_field` over the fields of a struct. -/
def missingField : List (Field L (Shape L)) → VObject → Option String
  | [], _ => none
  | ⟨key, shape, default, _⟩ :: fields, table =>
    let missing := match table.get key with
      | some value => (missingRequiredField shape value).map fun rest => key ++ "." ++ rest
      | none => if default.isSome ∨ shape.isOption then none else some key
    missing <|> missingField fields table
termination_by structural fields => fields

end

/-- `AppConfig::section`. -/
def AppConfig.sectionOf (deps : Externals L) (app : AppConfig) (name : String) (shape : Shape L)
    (aliases : List (String × String)) : Except SectionError (Datum L) × AppConfig :=
  match app.resolve deps name shape aliases with
  | (.error error, app) => (.error error, app)
  | (.ok (tree, applied), app) =>
    let tree := addMissingTables shape tree
    match missingRequiredField shape tree with
    | some field => (.error (.missingField name field), app)
    | none =>
      match deps.fromValue shape tree with
      | .error error => (.error (.invalid name applied error), app)
      | .ok value => (.ok value, app)

end QuizArena.Config
