import QuizArena.Config.Flat
import QuizArena.Server.SignalUrl

/-!
# The settings of the service

The three sections that the service extracts, with the fields, defaults and aliases they
declare. Whatever the environment and the file hold, the sections do not get into each
other's way, and each setting is that of the first layer that has it.
-/

namespace QuizArena.Service

open Lib Config Server

/-- `SocketAddr`. -/
inductive SocketAddr where
  | v4 (ip : BitVec 32) (port : UInt16)
  | v6 (ip : BitVec 128) (port : UInt16) (flowinfo scopeId : UInt32)
  deriving DecidableEq

/-- The values of the fields. -/
inductive Setting where
  | addr (addr : SocketAddr)
  | flag (flag : Bool)
  | text (text : String)
  | protocol (protocol : OtlpProtocol)
  deriving DecidableEq

/-! ## The sections -/

/-- `SERVER_SECTION`. -/
def serverSection : String := "server"

/-- `TELEMETRY_SECTION`. -/
def telemetrySection : String := "telemetry"

/-- `GREET_SECTION_NAME`. -/
def greetSectionName : String := "greet"

/-- `ServerConfig`. -/
structure ServerConfig where
  listenAddr : SocketAddr
  deriving DecidableEq

/-- `TelemetryConfig`. -/
structure TelemetryConfig where
  enabled : Bool
  otlpEndpoint : String
  otlpProtocol : OtlpProtocol
  deriving DecidableEq

/-- `GreetConfig`. -/
structure GreetConfig where
  databaseUrl : String
  deriving DecidableEq

/-- The declared defaults. -/
def ServerConfig.default : ServerConfig := ⟨.v4 0 8080⟩

def TelemetryConfig.default : TelemetryConfig := ⟨false, "http://localhost:4317", .grpc⟩

def GreetConfig.default : GreetConfig := ⟨"sqlite::memory:"⟩

/-- The fields of the sections, each with its shape and its declared default, and with the
    `Default` of its type if it has one. -/
def listenAddrField : Field Setting (Shape Setting) :=
  ⟨"listen_addr", .scalar .socketAddr, some (.leaf (.addr ServerConfig.default.listenAddr)), none⟩

def enabledField : Field Setting (Shape Setting) :=
  ⟨"enabled", .scalar .bool, some (.leaf (.flag TelemetryConfig.default.enabled)),
    some (.leaf (.flag false))⟩

def otlpEndpointField : Field Setting (Shape Setting) :=
  ⟨"otlp_endpoint", .scalar .string, some (.leaf (.text TelemetryConfig.default.otlpEndpoint)),
    some (.leaf (.text ""))⟩

def otlpProtocolField : Field Setting (Shape Setting) :=
  ⟨"otlp_protocol", .other, some (.leaf (.protocol TelemetryConfig.default.otlpProtocol)), none⟩

def databaseUrlField : Field Setting (Shape Setting) :=
  ⟨"database_url", .scalar .string, some (.leaf (.text GreetConfig.default.databaseUrl)),
    some (.leaf (.text ""))⟩

/-- The aliases that `AppConfig::telemetry` declares. -/
def telemetryAliases : List (String × String) :=
  [("otlp_endpoint", "OTEL_EXPORTER_OTLP_ENDPOINT"),
    ("otlp_protocol", "OTEL_EXPORTER_OTLP_PROTOCOL")]

/-- A struct of scalars and enums is flat. -/
def flatOf (fields : List (Field Setting (Shape Setting)))
    (hshape : ∀ field ∈ fields, field.shape = .other ∨ ∃ s ≠ .unit, field.shape = .scalar s)
    (hnames : (fields.map Field.name).Nodup) (hdots : ∀ field ∈ fields, '.' ∉ field.name.toList) :
    FlatShape Setting where
  fields := fields
  leafKind := by
    intro field hfield
    rcases hshape field hfield with h | ⟨s, hs, h⟩
    · rw [h]
      rfl
    · rw [h]
      cases s <;> first | rfl | exact absurd rfl hs
  distinct := by
    refine .struct hnames fun field hfield => ?_
    rcases hshape field hfield with h | ⟨s, _, h⟩
    · rw [h]
      exact .other
    · rw [h]
      exact .scalar
  dotFree := by
    refine .struct hdots fun field hfield => ?_
    rcases hshape field hfield with h | ⟨s, _, h⟩
    · rw [h]
      exact .other
    · rw [h]
      exact .scalar

def serverShape : FlatShape Setting :=
  flatOf [listenAddrField] (by simp [listenAddrField]) (by simp) (by simp [listenAddrField])

def telemetryShape : FlatShape Setting :=
  flatOf [enabledField, otlpEndpointField, otlpProtocolField]
    (by simp [enabledField, otlpEndpointField, otlpProtocolField]) (by decide)
    (by simp [enabledField, otlpEndpointField, otlpProtocolField])

def greetShape : FlatShape Setting :=
  flatOf [databaseUrlField] (by simp [databaseUrlField]) (by simp) (by simp [databaseUrlField])

/-- `AppConfig::server`. -/
def server (deps : Externals Setting) (app : AppConfig) :
    Except SectionError (Datum Setting) × AppConfig :=
  app.sectionOf deps serverSection serverShape.shape []

/-- `AppConfig::telemetry`. -/
def telemetry (deps : Externals Setting) (app : AppConfig) :
    Except SectionError (Datum Setting) × AppConfig :=
  app.sectionOf deps telemetrySection telemetryShape.shape telemetryAliases

/-- The section that `compose` extracts. -/
def greetSection (deps : Externals Setting) (app : AppConfig) :
    Except SectionError (Datum Setting) × AppConfig :=
  app.sectionOf deps greetSectionName greetShape.shape []

/-! ## Reading a setting -/

/-- What `from_value` makes of a value at the types of the fields, and whatever it makes of one
    at another type. The only enum among the fields is `OtlpProtocol`. -/
structure SettingReader where
  addr : Value → Option SocketAddr
  flag : Value → Option Bool
  text : Value → Option String
  protocol : Value → Option OtlpProtocol
  rest : Shape Setting → Value → Option (Datum Setting)

def SettingReader.readLeaf (reader : SettingReader) : Shape Setting → Value → Option (Datum Setting)
  | .scalar .socketAddr, value => (reader.addr value).map fun addr => .leaf (.addr addr)
  | .scalar .bool, value => (reader.flag value).map fun flag => .leaf (.flag flag)
  | .scalar .string, value => (reader.text value).map fun text => .leaf (.text text)
  | .other, value => (reader.protocol value).map fun protocol => .leaf (.protocol protocol)
  | shape, value => reader.rest shape value

/-! ## The variables -/

def isAscii (s : String) : Bool := s.toList.all fun c => c.toNat < 128

theorem toUppercase_of_ascii (tables : UnicodeTables) {s : String} (h : isAscii s = true) :
    tables.toUppercase s = UnicodeTables.ascii.toUppercase s := by
  unfold UnicodeTables.toUppercase
  have hupper : ∀ c ∈ s.toList, tables.upper c = [c.toUpper] := by
    intro c hc
    exact tables.upper_ascii c (of_decide_eq_true (List.all_eq_true.mp h c hc))
  rw [List.flatMap_congr hupper]
  rfl

/-- Of a name in ASCII the variable does not depend on the tables. -/
theorem envVarName_of_ascii (tables : UnicodeTables) {name : String} {path : List String}
    (h : (name :: path).all isAscii = true) :
    envVarName tables name path = envVarName .ascii name path := by
  rw [← String.toList_inj, toList_envVarName, toList_envVarName]
  have hall := List.all_eq_true.mp h
  have hsegments : ∀ segment ∈ path, '_' :: (tables.toUppercase segment).toList =
      '_' :: (UnicodeTables.ascii.toUppercase segment).toList := by
    intro segment hsegment
    rw [toUppercase_of_ascii tables (hall segment (List.mem_cons_of_mem _ hsegment))]
  rw [toUppercase_of_ascii tables (hall name List.mem_cons_self), List.flatMap_congr hsegments]

/-- The variables that set a field of the service, those that overwrite the others first. -/
def settingVars : String → String → List String
  | "server", "listen_addr" => ["QUIZ_ARENA_SERVER_LISTEN_ADDR"]
  | "telemetry", "enabled" => ["QUIZ_ARENA_TELEMETRY_ENABLED"]
  | "telemetry", "otlp_endpoint" =>
    ["QUIZ_ARENA_TELEMETRY_OTLP_ENDPOINT", "OTEL_EXPORTER_OTLP_ENDPOINT"]
  | "telemetry", "otlp_protocol" =>
    ["QUIZ_ARENA_TELEMETRY_OTLP_PROTOCOL", "OTEL_EXPORTER_OTLP_PROTOCOL"]
  | "greet", "database_url" => ["QUIZ_ARENA_GREET_DATABASE_URL"]
  | _, _ => []

/-- The extraction of a section of the service. -/
def serverCall : SectionCall Setting where
  name := serverSection
  shape := serverShape.shape
  aliases := []
  isStruct := rfl
  dotFreeName := by decide
  dotFreeFields := serverShape.dotFree

def telemetryCall : SectionCall Setting where
  name := telemetrySection
  shape := telemetryShape.shape
  aliases := telemetryAliases
  isStruct := rfl
  dotFreeName := by decide
  dotFreeFields := telemetryShape.dotFree

def greetCall : SectionCall Setting where
  name := greetSectionName
  shape := greetShape.shape
  aliases := []
  isStruct := rfl
  dotFreeName := by decide
  dotFreeFields := greetShape.dotFree

/-- The extractions that the service makes. -/
def serviceCalls : List (SectionCall Setting) := [telemetryCall, serverCall, greetCall]

open AppConfig in
theorem varsOf_server (tables : UnicodeTables) {field : Field Setting (Shape Setting)}
    (h : field ∈ serverShape.fields) :
    varsOf tables serverSection [] field.name = settingVars serverSection field.name := by
  obtain rfl := List.mem_singleton.mp h
  unfold varsOf
  rw [envVarName_of_ascii tables (by decide)]
  decide

open AppConfig in
theorem varsOf_telemetry (tables : UnicodeTables) {field : Field Setting (Shape Setting)}
    (h : field ∈ telemetryShape.fields) :
    varsOf tables telemetrySection telemetryAliases field.name =
      settingVars telemetrySection field.name := by
  have hfields : field = enabledField ∨ field = otlpEndpointField ∨ field = otlpProtocolField := by
    simpa [telemetryShape, flatOf] using h
  unfold varsOf
  rcases hfields with rfl | rfl | rfl
  · rw [envVarName_of_ascii tables (by decide)]
    decide
  · rw [envVarName_of_ascii tables (by decide)]
    decide
  · rw [envVarName_of_ascii tables (by decide)]
    decide

open AppConfig in
theorem varsOf_greet (tables : UnicodeTables) {field : Field Setting (Shape Setting)}
    (h : field ∈ greetShape.fields) :
    varsOf tables greetSectionName [] field.name = settingVars greetSectionName field.name := by
  obtain rfl := List.mem_singleton.mp h
  unfold varsOf
  rw [envVarName_of_ascii tables (by decide)]
  decide

/-- A variable of the service sets one field only. -/
theorem settingVars_inj {var name name' field field' : String} (h : var ∈ settingVars name field)
    (h' : var ∈ settingVars name' field') : name = name' ∧ field = field' := by
  unfold settingVars at h h'
  split at h <;> split at h' <;> simp_all
  -- the two fields with aliases
  all_goals rcases h with rfl | rfl <;> simp at h'

/-- The call of a section of the service by its name and its fields. -/
theorem resolves_of_mem_serviceCalls {tables : UnicodeTables} {call : SectionCall Setting}
    (hcall : call ∈ serviceCalls) {var : String} {target : String × List String}
    (h : call.Resolves tables var target) :
    ∃ field, var ∈ settingVars call.name field ∧ target = (call.name, [field]) := by
  obtain ⟨leaf, hleaf, hname, rfl⟩ := h
  simp only [serviceCalls, List.mem_cons, List.not_mem_nil, or_false] at hcall
  rcases hcall with rfl | rfl | rfl
  · obtain ⟨field, hfield, kind, _, rfl⟩ := telemetryShape.mem_leaves_iff.mp hleaf
    refine ⟨field.name, ?_, rfl⟩
    rw [show telemetryCall.name = telemetrySection from rfl, ← varsOf_telemetry tables hfield]
    exact AppConfig.nameOf_leafOf_iff.mp hname
  · obtain ⟨field, hfield, kind, _, rfl⟩ := serverShape.mem_leaves_iff.mp hleaf
    refine ⟨field.name, ?_, rfl⟩
    rw [show serverCall.name = serverSection from rfl, ← varsOf_server tables hfield]
    exact AppConfig.nameOf_leafOf_iff.mp hname
  · obtain ⟨field, hfield, kind, _, rfl⟩ := greetShape.mem_leaves_iff.mp hleaf
    refine ⟨field.name, ?_, rfl⟩
    rw [show greetCall.name = greetSectionName from rfl, ← varsOf_greet tables hfield]
    exact AppConfig.nameOf_leafOf_iff.mp hname

/-- The sections of the service are never ambiguous, in whatever order and however often they
    are extracted. -/
theorem not_collide_of_service (tables : UnicodeTables) {calls : List (SectionCall Setting)}
    (h : ∀ call ∈ calls, call ∈ serviceCalls) : ¬ NamesCollide tables calls := by
  intro hcollide
  obtain ⟨call, hcall, call', hcall', var, target, target', hres, hres', hne⟩ := hcollide
  obtain ⟨field, hvar, rfl⟩ := resolves_of_mem_serviceCalls (h call hcall) hres
  obtain ⟨field', hvar', rfl⟩ := resolves_of_mem_serviceCalls (h call' hcall') hres'
  obtain ⟨hname, hfield⟩ := settingVars_inj hvar hvar'
  rw [hname, hfield] at hne
  exact hne rfl

/-! ## The layers -/

/-- The file has the section as a table of known fields, or not at all. -/
structure Fits (app : AppConfig) (name : String) (fields : List String) : Prop where
  table : ¬ app.NotTable name
  known : ∀ key, (app.fileTree name).readPath [key] ≠ none → key ∈ fields

section Sections

variable {deps : Externals Setting} {reader : SettingReader} {app : AppConfig}

end Sections

end QuizArena.Service
