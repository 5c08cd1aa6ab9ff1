/-
# Configuration documents

The classes of `adapters/config.py` as they are read from a document, and `load_config`
from the document on: what each class declares, of which type and with which default.

How a value is read into a type is pydantic's, and a parameter (`Pydantic`).  The classes
are strict: a value that has the type of its field is taken as it is, and a text, a list
or an object only of that type; a key that no field declares is an error.  That is what
the results rely on (`Pydantic.Strict`).
-/

import SwitchyardGateway.Adapters.Config
import SwitchyardGateway.Adapters.Environment

namespace SwitchyardGateway
namespace Configuration

open Python

/-! ### Fields -/

/-- What reads a value into the type of a field. -/
abbrev Reader (α : Type) := Json → Except Rejection α

/-- How pydantic reads values into the types of fields. -/
structure Pydantic where
  /-- `str`, which is decoded only where a constraint has to be checked. -/
  str : (constrained : Bool) → Reader Str
  bool : Reader Bool
  int : Reader ℤ
  float : Reader Flt
  /-- `list[…]`. -/
  list : {α : Type} → Reader α → Reader (List α)
  /-- `dict[…, …]`. -/
  dict : {α : Type} → Reader Str → Reader α → Reader (Dict Str α)
  /-- The fields of a class that declares these keys, with `extra="forbid"`. -/
  model : (keys : List Str) → Reader Payload

/-- What strict classes rely on. -/
structure Pydantic.Strict (pydantic : Pydantic) : Prop where
  str : ∀ {constrained : Bool} {v : Json} {s : Str}, pydantic.str constrained v = .ok s → v = .str s
  /-- A text without surrogates is taken. -/
  text : ∀ (constrained : Bool) (s : Str), (∀ c ∈ s, c.isValidChar) → pydantic.str constrained (.str s) = .ok s
  bool : ∀ b, pydantic.bool (.bool b) = .ok b
  int : ∀ n, pydantic.int (.int n) = .ok n
  /-- An `int` may be taken for a `float`, if it is not too large, and rounded. -/
  float : ∀ x, pydantic.float (.float x) = .ok x
  list : ∀ {α : Type} {read : Reader α} {v : Json} {xs : List α}, pydantic.list read v = .ok xs ↔
    ∃ items, v = .list items ∧ List.Forall₂ (fun item x => read item = .ok x) items xs
  dict : ∀ {α : Type} {key : Reader Str} {read : Reader α} {v : Json} {d : Dict Str α},
    pydantic.dict key read v = .ok d ↔ ∃ fields, v = .obj fields ∧
      List.Forall₂ (fun p q => key (.str p.1) = .ok q.1 ∧ read p.2 = .ok q.2) fields d
  model : ∀ {keys : List Str} {v : Json} {fields : Payload},
    pydantic.model keys v = .ok fields ↔ v = .obj fields ∧ ∀ p ∈ fields, p.1 ∈ keys

/-- A field without a default. -/
def required {α : Type} (fields : Payload) (key : String) (read : Reader α) : Except Rejection α :=
  match fields.lookup (lit key) with
  | some v => read v
  | none => .error .constraint

/-- A field with a default. -/
def optional {α : Type} (fields : Payload) (key : String) (default : α) (read : Reader α) :
    Except Rejection α :=
  match fields.lookup (lit key) with
  | some v => read v
  | none => .ok default

/-! ### The classes -/

def EndpointConfig.keys : List Str := ["name", "base_url", "api_key"].map lit

def ModelConfig.keys : List Str := ["model_id", "endpoints", "context_window", "defaults"].map lit

def PairConfig.keys : List Str := ["capable", "efficient"].map lit

def StageConfig.keys : List Str :=
  ["picker", "confidence_threshold", "recent_window", "only_on_wrong_signal_escalation",
    "escalation_note", "deescalation_note", "capable_system_prompt",
    "efficient_system_prompt"].map lit

def CompressionConfig.keys : List Str := ["enabled", "workers"].map lit

def ServerConfig.keys : List Str := ["api_key", "host", "port", "max_request_bytes"].map lit

def Config.keys : List Str :=
  ["server", "models", "pairs", "stage", "compression", "cooldown_seconds", "connect_timeout",
    "read_timeout", "forward_headers"].map lit

section

variable (pydantic : Pydantic)

/-- `float` with `allow_inf_nan=False`. -/
def Pydantic.finite : Reader ℚ := fun v => do
  match ← pydantic.float v with
  | .fin q => return q
  | _ => .error .constraint

/-- `dict[str, Any]`. -/
def Pydantic.payload : Reader Payload := pydantic.dict (pydantic.str false) .ok

def EndpointConfig.read : Reader EndpointConfig := fun doc => do
  let fields ← pydantic.model EndpointConfig.keys doc
  return {
    name := ← required fields "name" (pydantic.str true)
    baseUrl := ← required fields "base_url" (pydantic.str false)
    apiKey := ← optional fields "api_key" [] (pydantic.str false) }

def ModelConfig.read : Reader ModelConfig := fun doc => do
  let fields ← pydantic.model ModelConfig.keys doc
  return {
    modelId := ← required fields "model_id" (pydantic.str true)
    endpoints := ← required fields "endpoints" (pydantic.list (EndpointConfig.read pydantic))
    contextWindow := ← optional fields "context_window" 131072 pydantic.int
    defaults := ← optional fields "defaults" [] pydantic.payload }

def PairConfig.read : Reader PairConfig := fun doc => do
  let fields ← pydantic.model PairConfig.keys doc
  return {
    capable := ← required fields "capable" (pydantic.str true)
    efficient := ← required fields "efficient" (pydantic.str true) }

def StageConfig.read : Reader StageConfig := fun doc => do
  let fields ← pydantic.model StageConfig.keys doc
  let default : StageConfig := {}
  return {
    picker := ← optional fields "picker" default.picker (pydantic.str true)
    confidenceThreshold :=
      ← optional fields "confidence_threshold" default.confidenceThreshold pydantic.float
    recentWindow := ← optional fields "recent_window" default.recentWindow pydantic.int
    onlyOnWrongSignalEscalation := ← optional fields "only_on_wrong_signal_escalation"
      default.onlyOnWrongSignalEscalation pydantic.bool
    escalationNote := ← optional fields "escalation_note" default.escalationNote (pydantic.str false)
    deescalationNote := ← optional fields "deescalation_note" default.deescalationNote (pydantic.str false)
    capableSystemPrompt :=
      ← optional fields "capable_system_prompt" default.capableSystemPrompt (pydantic.str false)
    efficientSystemPrompt :=
      ← optional fields "efficient_system_prompt" default.efficientSystemPrompt (pydantic.str false) }

def CompressionConfig.read : Reader CompressionConfig := fun doc => do
  let fields ← pydantic.model CompressionConfig.keys doc
  return {
    enabled := ← optional fields "enabled" true pydantic.bool
    workers := ← optional fields "workers" 2 pydantic.int }

def ServerConfig.read : Reader ServerConfig := fun doc => do
  let fields ← pydantic.model ServerConfig.keys doc
  return {
    apiKey := ← required fields "api_key" (pydantic.str true)
    host := ← optional fields "host" (lit "127.0.0.1") (pydantic.str false)
    port := ← optional fields "port" 4000 pydantic.int
    maxRequestBytes := ← optional fields "max_request_bytes" (16 * 1024 * 1024) pydantic.int }

def Config.read : Reader Config := fun doc => do
  let fields ← pydantic.model Config.keys doc
  return {
    server := ← required fields "server" (ServerConfig.read pydantic)
    models := ← required fields "models" (pydantic.dict (pydantic.str true) (ModelConfig.read pydantic))
    pairs := ← optional fields "pairs" [] (pydantic.dict (pydantic.str true) (PairConfig.read pydantic))
    stage := ← optional fields "stage" {} (StageConfig.read pydantic)
    compression := ← optional fields "compression" {} (CompressionConfig.read pydantic)
    cooldownSeconds := ← optional fields "cooldown_seconds" 30 pydantic.finite
    connectTimeout := ← optional fields "connect_timeout" 5 pydantic.finite
    readTimeout := ← optional fields "read_timeout" 300 pydantic.finite
    forwardHeaders := ← optional fields "forward_headers"
      [lit "x-session-id", lit "x-opencode-session"] (pydantic.list (pydantic.str false)) }

end

/-! ### Loading -/

/-- The `except` clauses of `load_config`: a `GatewayError` goes on, and a `ValueError` or a
`TypeError` is an invalid configuration. -/
def excepted : Exc → Err
  | .valueError | .typeError => gatewayError "invalid_configuration" 500
  | e => .exc e

/-- `load_config`, once the file has been read and parsed. -/
def load (lib : Lib) (pydantic : Pydantic) (urlsplit : Str → Except String SplitUrl)
    (environ : Str → Variable) (doc : Json) : Except Err Settings := do
  let doc ← (resolve environ doc).mapError excepted
  let config ← (Config.read pydantic doc).mapError fun _ => gatewayError "invalid_configuration" 500
  loadConfig lib urlsplit config

/-! ### What a class makes of an object -/

section

variable {pydantic : Pydantic} {doc : Json} {α : Type} {read : Reader α} {fields : Payload} {key : String} {x : α}

theorem EndpointConfig.read_ok {endpoint : EndpointConfig} :
    EndpointConfig.read pydantic doc = .ok endpoint ↔
      ∃ fields, pydantic.model EndpointConfig.keys doc = .ok fields ∧
        required fields "name" (pydantic.str true) = .ok endpoint.name ∧
        required fields "base_url" (pydantic.str false) = .ok endpoint.baseUrl ∧
        optional fields "api_key" [] (pydantic.str false) = .ok endpoint.apiKey := by
  constructor
  · intro h
    obtain ⟨fields, hfields, h⟩ := bind_ok h
    obtain ⟨name, hname, h⟩ := bind_ok h
    obtain ⟨baseUrl, hurl, h⟩ := bind_ok h
    obtain ⟨apiKey, hkey, h⟩ := bind_ok h
    obtain rfl := Except.ok.inj h
    exact ⟨fields, hfields, hname, hurl, hkey⟩
  · rintro ⟨fields, hfields, hname, hurl, hkey⟩
    simp only [EndpointConfig.read, hfields, hname, hurl, hkey, ok_bind]
    rfl

theorem ModelConfig.read_ok {model : ModelConfig} :
    ModelConfig.read pydantic doc = .ok model ↔
      ∃ fields, pydantic.model ModelConfig.keys doc = .ok fields ∧
        required fields "model_id" (pydantic.str true) = .ok model.modelId ∧
        required fields "endpoints" (pydantic.list (EndpointConfig.read pydantic)) = .ok model.endpoints ∧
        optional fields "context_window" 131072 pydantic.int = .ok model.contextWindow ∧
        optional fields "defaults" [] pydantic.payload = .ok model.defaults := by
  constructor
  · intro h
    obtain ⟨fields, hfields, h⟩ := bind_ok h
    obtain ⟨modelId, hid, h⟩ := bind_ok h
    obtain ⟨endpoints, hendpoints, h⟩ := bind_ok h
    obtain ⟨contextWindow, hwindow, h⟩ := bind_ok h
    obtain ⟨defaults, hdefaults, h⟩ := bind_ok h
    obtain rfl := Except.ok.inj h
    exact ⟨fields, hfields, hid, hendpoints, hwindow, hdefaults⟩
  · rintro ⟨fields, hfields, hid, hendpoints, hwindow, hdefaults⟩
    simp only [ModelConfig.read, hfields, hid, hendpoints, hwindow, hdefaults, ok_bind]
    rfl

theorem PairConfig.read_ok {pair : PairConfig} :
    PairConfig.read pydantic doc = .ok pair ↔
      ∃ fields, pydantic.model PairConfig.keys doc = .ok fields ∧
        required fields "capable" (pydantic.str true) = .ok pair.capable ∧
        required fields "efficient" (pydantic.str true) = .ok pair.efficient := by
  constructor
  · intro h
    obtain ⟨fields, hfields, h⟩ := bind_ok h
    obtain ⟨capable, hcapable, h⟩ := bind_ok h
    obtain ⟨efficient, hefficient, h⟩ := bind_ok h
    obtain rfl := Except.ok.inj h
    exact ⟨fields, hfields, hcapable, hefficient⟩
  · rintro ⟨fields, hfields, hcapable, hefficient⟩
    simp only [PairConfig.read, hfields, hcapable, hefficient, ok_bind]
    rfl

theorem StageConfig.read_ok {stage : StageConfig} :
    StageConfig.read pydantic doc = .ok stage ↔
      ∃ fields, pydantic.model StageConfig.keys doc = .ok fields ∧
        optional fields "picker" ({} : StageConfig).picker (pydantic.str true) = .ok stage.picker ∧
        optional fields "confidence_threshold" ({} : StageConfig).confidenceThreshold pydantic.float =
          .ok stage.confidenceThreshold ∧
        optional fields "recent_window" ({} : StageConfig).recentWindow pydantic.int = .ok stage.recentWindow ∧
        optional fields "only_on_wrong_signal_escalation" ({} : StageConfig).onlyOnWrongSignalEscalation
          pydantic.bool = .ok stage.onlyOnWrongSignalEscalation ∧
        optional fields "escalation_note" ({} : StageConfig).escalationNote (pydantic.str false) =
          .ok stage.escalationNote ∧
        optional fields "deescalation_note" ({} : StageConfig).deescalationNote (pydantic.str false) =
          .ok stage.deescalationNote ∧
        optional fields "capable_system_prompt" ({} : StageConfig).capableSystemPrompt (pydantic.str false) =
          .ok stage.capableSystemPrompt ∧
        optional fields "efficient_system_prompt" ({} : StageConfig).efficientSystemPrompt (pydantic.str false) =
          .ok stage.efficientSystemPrompt := by
  constructor
  · intro h
    obtain ⟨fields, hfields, h⟩ := bind_ok h
    obtain ⟨picker, hpicker, h⟩ := bind_ok h
    obtain ⟨confidenceThreshold, hthreshold, h⟩ := bind_ok h
    obtain ⟨recentWindow, hwindow, h⟩ := bind_ok h
    obtain ⟨onlyOnWrongSignalEscalation, honly, h⟩ := bind_ok h
    obtain ⟨escalationNote, hescalation, h⟩ := bind_ok h
    obtain ⟨deescalationNote, hdeescalation, h⟩ := bind_ok h
    obtain ⟨capableSystemPrompt, hcapable, h⟩ := bind_ok h
    obtain ⟨efficientSystemPrompt, hefficient, h⟩ := bind_ok h
    obtain rfl := Except.ok.inj h
    exact ⟨fields, hfields, hpicker, hthreshold, hwindow, honly, hescalation, hdeescalation, hcapable, hefficient⟩
  · rintro ⟨fields, hfields, hpicker, hthreshold, hwindow, honly, hescalation, hdeescalation, hcapable, hefficient⟩
    simp only [StageConfig.read, hfields, hpicker, hthreshold, hwindow, honly, hescalation, hdeescalation, hcapable,
      hefficient, ok_bind]
    rfl

theorem CompressionConfig.read_ok {compression : CompressionConfig} :
    CompressionConfig.read pydantic doc = .ok compression ↔
      ∃ fields, pydantic.model CompressionConfig.keys doc = .ok fields ∧
        optional fields "enabled" true pydantic.bool = .ok compression.enabled ∧
        optional fields "workers" 2 pydantic.int = .ok compression.workers := by
  constructor
  · intro h
    obtain ⟨fields, hfields, h⟩ := bind_ok h
    obtain ⟨enabled, henabled, h⟩ := bind_ok h
    obtain ⟨workers, hworkers, h⟩ := bind_ok h
    obtain rfl := Except.ok.inj h
    exact ⟨fields, hfields, henabled, hworkers⟩
  · rintro ⟨fields, hfields, henabled, hworkers⟩
    simp only [CompressionConfig.read, hfields, henabled, hworkers, ok_bind]
    rfl

theorem ServerConfig.read_ok {server : ServerConfig} :
    ServerConfig.read pydantic doc = .ok server ↔
      ∃ fields, pydantic.model ServerConfig.keys doc = .ok fields ∧
        required fields "api_key" (pydantic.str true) = .ok server.apiKey ∧
        optional fields "host" (lit "127.0.0.1") (pydantic.str false) = .ok server.host ∧
        optional fields "port" 4000 pydantic.int = .ok server.port ∧
        optional fields "max_request_bytes" (16 * 1024 * 1024) pydantic.int = .ok server.maxRequestBytes := by
  constructor
  · intro h
    obtain ⟨fields, hfields, h⟩ := bind_ok h
    obtain ⟨apiKey, hkey, h⟩ := bind_ok h
    obtain ⟨host, hhost, h⟩ := bind_ok h
    obtain ⟨port, hport, h⟩ := bind_ok h
    obtain ⟨maxRequestBytes, hbytes, h⟩ := bind_ok h
    obtain rfl := Except.ok.inj h
    exact ⟨fields, hfields, hkey, hhost, hport, hbytes⟩
  · rintro ⟨fields, hfields, hkey, hhost, hport, hbytes⟩
    simp only [ServerConfig.read, hfields, hkey, hhost, hport, hbytes, ok_bind]
    rfl

theorem Config.read_ok {config : Config} :
    Config.read pydantic doc = .ok config ↔
      ∃ fields, pydantic.model Config.keys doc = .ok fields ∧
        required fields "server" (ServerConfig.read pydantic) = .ok config.server ∧
        required fields "models" (pydantic.dict (pydantic.str true) (ModelConfig.read pydantic)) =
          .ok config.models ∧
        optional fields "pairs" [] (pydantic.dict (pydantic.str true) (PairConfig.read pydantic)) =
          .ok config.pairs ∧
        optional fields "stage" {} (StageConfig.read pydantic) = .ok config.stage ∧
        optional fields "compression" {} (CompressionConfig.read pydantic) = .ok config.compression ∧
        optional fields "cooldown_seconds" 30 pydantic.finite = .ok config.cooldownSeconds ∧
        optional fields "connect_timeout" 5 pydantic.finite = .ok config.connectTimeout ∧
        optional fields "read_timeout" 300 pydantic.finite = .ok config.readTimeout ∧
        optional fields "forward_headers" [lit "x-session-id", lit "x-opencode-session"]
          (pydantic.list (pydantic.str false)) = .ok config.forwardHeaders := by
  constructor
  · intro h
    obtain ⟨fields, hfields, h⟩ := bind_ok h
    obtain ⟨server, hserver, h⟩ := bind_ok h
    obtain ⟨models, hmodels, h⟩ := bind_ok h
    obtain ⟨pairs, hpairs, h⟩ := bind_ok h
    obtain ⟨stage, hstage, h⟩ := bind_ok h
    obtain ⟨compression, hcompression, h⟩ := bind_ok h
    obtain ⟨cooldownSeconds, hcooldown, h⟩ := bind_ok h
    obtain ⟨connectTimeout, hconnect, h⟩ := bind_ok h
    obtain ⟨readTimeout, hread, h⟩ := bind_ok h
    obtain ⟨forwardHeaders, hheaders, h⟩ := bind_ok h
    obtain rfl := Except.ok.inj h
    exact ⟨fields, hfields, hserver, hmodels, hpairs, hstage, hcompression, hcooldown, hconnect, hread, hheaders⟩
  · rintro ⟨fields, hfields, hserver, hmodels, hpairs, hstage, hcompression, hcooldown, hconnect, hread, hheaders⟩
    simp only [Config.read, hfields, hserver, hmodels, hpairs, hstage, hcompression, hcooldown, hconnect, hread,
      hheaders, ok_bind]
    rfl

/-- A required field is there. -/
theorem required_ok (h : required fields key read = .ok x) :
    ∃ v, fields.lookup (lit key) = some v ∧ read v = .ok x := by
  unfold required at h
  cases hlookup : fields.lookup (lit key) with
  | none =>
    rw [hlookup] at h
    cases h
  | some v =>
    rw [hlookup] at h
    exact ⟨v, rfl, h⟩

/-- A field with a default is there, or has it. -/
theorem optional_ok {default : α} (h : optional fields key default read = .ok x) :
    fields.lookup (lit key) = none ∧ x = default ∨ ∃ v, fields.lookup (lit key) = some v ∧ read v = .ok x := by
  unfold optional at h
  cases hlookup : fields.lookup (lit key) with
  | none =>
    rw [hlookup] at h
    exact .inl ⟨rfl, (Except.ok.inj h).symm⟩
  | some v =>
    rw [hlookup] at h
    exact .inr ⟨v, rfl, h⟩

theorem required_read (h : required fields key read = .ok x) {v : Json} (hv : fields.lookup (lit key) = some v) :
    read v = .ok x := by
  rwa [required, hv] at h

theorem optional_read {default : α} (h : optional fields key default read = .ok x) {v : Json}
    (hv : fields.lookup (lit key) = some v) : read v = .ok x := by
  rwa [optional, hv] at h

end

/-! ### What an accepted document may say -/

/-- An object of which every key is declared. -/
def KeysIn (keys : List Str) (doc : Json) : Prop := ∃ fields, doc = .obj fields ∧ ∀ p ∈ fields, p.1 ∈ keys

/-- The value of a field of an object. -/
def FieldOf (doc : Json) (key : String) (v : Json) : Prop :=
  ∃ fields, doc = .obj fields ∧ fields.lookup (lit key) = some v

/-- No key of a document is misspelled, in any of its sections. -/
structure Spelled (doc : Json) : Prop where
  top : KeysIn Config.keys doc
  server : ∀ v, FieldOf doc "server" v → KeysIn ServerConfig.keys v
  stage : ∀ v, FieldOf doc "stage" v → KeysIn StageConfig.keys v
  compression : ∀ v, FieldOf doc "compression" v → KeysIn CompressionConfig.keys v
  pairs : ∀ pairs, FieldOf doc "pairs" (.obj pairs) → ∀ p ∈ pairs, KeysIn PairConfig.keys p.2
  models : ∀ models, FieldOf doc "models" (.obj models) → ∀ m ∈ models,
    KeysIn ModelConfig.keys m.2 ∧ ∀ endpoints, FieldOf m.2 "endpoints" (.list endpoints) →
      ∀ e ∈ endpoints, KeysIn EndpointConfig.keys e

section

variable {pydantic : Pydantic} {doc : Json} {α : Type} {read : Reader α}

/-- The fields of a class that is read. -/
theorem Pydantic.Strict.keysIn (h : pydantic.Strict) {keys : List Str} {fields : Payload}
    (hfields : pydantic.model keys doc = .ok fields) : KeysIn keys doc :=
  ⟨fields, h.model.1 hfields⟩

/-- The field of an object that is read. -/
theorem Pydantic.Strict.fieldOf (h : pydantic.Strict) {keys : List Str} {fields : Payload}
    (hfields : pydantic.model keys doc = .ok fields) {key : String} {v : Json} (hv : FieldOf doc key v) :
    fields.lookup (lit key) = some v := by
  obtain ⟨rfl, -⟩ := h.model.1 hfields
  obtain ⟨_, hobj, hlookup⟩ := hv
  obtain rfl := Json.obj.inj hobj
  exact hlookup

theorem Pydantic.Strict.item (h : pydantic.Strict) {items : List Json} {xs : List α}
    (hxs : pydantic.list read (.list items) = .ok xs) {v : Json} (hv : v ∈ items) : ∃ x, read v = .ok x := by
  obtain ⟨_, hitems, hread⟩ := h.list.1 hxs
  obtain rfl := Json.list.inj hitems
  obtain ⟨x, -, hx⟩ := exists_related hread hv
  exact ⟨x, hx⟩

theorem Pydantic.Strict.value (h : pydantic.Strict) {key : Reader Str} {fields : List (Str × Json)} {d : Dict Str α}
    (hd : pydantic.dict key read (.obj fields) = .ok d) {p : Str × Json} (hp : p ∈ fields) :
    ∃ x, read p.2 = .ok x := by
  obtain ⟨_, hfields, hread⟩ := h.dict.1 hd
  obtain rfl := Json.obj.inj hfields
  obtain ⟨q, -, -, hq⟩ := exists_related hread hp
  exact ⟨q.2, hq⟩

/-- A model's endpoints are spelled as well. -/
theorem ModelConfig.read_keys (h : pydantic.Strict) {model : ModelConfig}
    (hread : ModelConfig.read pydantic doc = .ok model) : KeysIn ModelConfig.keys doc ∧
      ∀ endpoints, FieldOf doc "endpoints" (.list endpoints) →
        ∀ e ∈ endpoints, KeysIn EndpointConfig.keys e := by
  obtain ⟨fields, hfields, -, hendpoints, -⟩ := ModelConfig.read_ok.1 hread
  refine ⟨h.keysIn hfields, fun endpoints hfield e he => ?_⟩
  obtain ⟨_, hendpoint⟩ := h.item (required_read hendpoints (h.fieldOf hfields hfield)) he
  obtain ⟨_, hkeys, -⟩ := EndpointConfig.read_ok.1 hendpoint
  exact h.keysIn hkeys

/-- **A document that is read is spelled correctly.** -/
theorem Config.read_spelled (h : pydantic.Strict) {config : Config} (hread : Config.read pydantic doc = .ok config) :
    Spelled doc := by
  obtain ⟨fields, hfields, hserver, hmodels, hpairs, hstage, hcompression, -⟩ := Config.read_ok.1 hread
  constructor
  case top => exact h.keysIn hfields
  case server =>
    intro v hv
    obtain ⟨_, hkeys, -⟩ := ServerConfig.read_ok.1 (required_read hserver (h.fieldOf hfields hv))
    exact h.keysIn hkeys
  case stage =>
    intro v hv
    obtain ⟨_, hkeys, -⟩ := StageConfig.read_ok.1 (optional_read hstage (h.fieldOf hfields hv))
    exact h.keysIn hkeys
  case compression =>
    intro v hv
    obtain ⟨_, hkeys, -⟩ := CompressionConfig.read_ok.1 (optional_read hcompression (h.fieldOf hfields hv))
    exact h.keysIn hkeys
  case pairs =>
    intro pairs hv p hp
    obtain ⟨_, hpair⟩ := h.value (optional_read hpairs (h.fieldOf hfields hv)) hp
    obtain ⟨_, hkeys, -⟩ := PairConfig.read_ok.1 hpair
    exact h.keysIn hkeys
  case models =>
    intro models hv m hm
    obtain ⟨_, hmodel⟩ := h.value (required_read hmodels (h.fieldOf hfields hv)) hm
    exact ModelConfig.read_keys h hmodel

end

section

variable {lib : Lib} {pydantic : Pydantic} {urlsplit : Str → Except String SplitUrl} {environ : Str → Variable}
  {doc : Json} {settings : Settings}

/-- What was loaded was resolved, read and validated. -/
theorem load_ok : load lib pydantic urlsplit environ doc = .ok settings ↔
    ∃ doc' config, resolve environ doc = .ok doc' ∧ Config.read pydantic doc' = .ok config ∧
      loadConfig lib urlsplit config = .ok settings := by
  constructor
  · intro h
    obtain ⟨doc', hresolved, h⟩ := bind_ok h
    obtain ⟨config, hread, h⟩ := bind_ok h
    exact ⟨doc', config, mapError_ok hresolved, mapError_ok hread, h⟩
  · rintro ⟨doc', config, hresolved, hread, h⟩
    rw [load, hresolved]
    change (Config.read pydantic doc').mapError _ >>= _ = _
    rw [hread]
    exact h

theorem load_accepted (h : load lib pydantic urlsplit environ doc = .ok settings) : Accepted lib urlsplit settings := by
  obtain ⟨_, _, -, -, hconfig⟩ := load_ok.1 h
  exact (loadConfig_ok.1 hconfig).2

/-- What is loaded is wellformed. -/
theorem load_wellformed (h : load lib pydantic urlsplit environ doc = .ok settings) : Wellformed settings :=
  (load_accepted h).wellformed

/-- A resolved document that is not loaded is an invalid one. -/
theorem load_error {doc' : Json} {e : Err} (hresolved : resolve environ doc = .ok doc')
    (h : load lib pydantic urlsplit environ doc = .error e) : e = gatewayError "invalid_configuration" 500 := by
  rw [load, hresolved] at h
  change (Config.read pydantic doc').mapError _ >>= _ = _ at h
  cases hread : Config.read pydantic doc' with
  | error _ =>
    rw [hread] at h
    exact (Except.error.inj h).symm
  | ok config =>
    rw [hread] at h
    change loadConfig lib urlsplit config = _ at h
    unfold loadConfig at h
    split at h
    · cases h
    · exact (Except.error.inj h).symm

end

/-- **Loading is sound.**  Settings come of a document of which every variable could be
read and every key is declared, and every label, bound and reference in them is in
order; anything else ends in one of two errors, which do not depend on what the document
says. -/
theorem load_sound (lib : Lib) (pydantic : Pydantic) (hstrict : pydantic.Strict)
    (urlsplit : Str → Except String SplitUrl) (environ : Str → Variable) (doc : Json) :
    (∀ settings, load lib pydantic urlsplit environ doc = .ok settings →
      (∀ name, Refers doc name → Readable environ name) ∧ Accepted lib urlsplit settings ∧
        ∃ doc', resolve environ doc = .ok doc' ∧ Spelled doc') ∧
    ∀ e, load lib pydantic urlsplit environ doc = .error e →
      (e = gatewayError "missing_configuration_environment" 500 ∧
        ∃ name, Refers doc name ∧ Fails environ name (.gateway "missing_configuration_environment" 500)) ∨
      (e = gatewayError "invalid_configuration" 500 ∧
        ((∀ name, Refers doc name → Readable environ name) ∨
          ∃ text, Refers doc (.str text) ∧ environ text = .unencodable)) := by
  refine ⟨fun settings h => ?_, fun e h => ?_⟩
  · obtain ⟨doc', config, hresolved, hread, -⟩ := load_ok.1 h
    exact ⟨resolve_ok_iff.1 ⟨doc', hresolved⟩, load_accepted h, doc', hresolved, Config.read_spelled hstrict hread⟩
  · cases hresolved : resolve environ doc with
    | ok doc' => exact .inr ⟨load_error hresolved h, .inl (resolve_ok_iff.1 ⟨doc', hresolved⟩)⟩
    | error e' =>
      rw [load, hresolved] at h
      obtain rfl : excepted e' = e := Except.error.inj h
      obtain ⟨before, name, after, hreferences, -, hfails⟩ := resolve_error_iff.1 hresolved
      have hrefers : Refers doc name := mem_references.1 (hreferences ▸ List.mem_append_cons_self)
      cases hfails with
      | missing hmissing => exact .inl ⟨rfl, name, hrefers, .missing hmissing⟩
      | unencodable hvariable => exact .inr ⟨rfl, .inr ⟨_, hrefers, hvariable⟩⟩

/-! ### A small document -/

/-- Values of the type of their field, taken as they are. -/
def verbatim : Pydantic where
  str _ v := match v with
    | .str s => .ok s
    | _ => .error .constraint
  bool v := match v with
    | .bool b => .ok b
    | _ => .error .constraint
  int v := match v with
    | .int n => .ok n
    | _ => .error .constraint
  float v := match v with
    | .int n => .ok (.fin n)
    | .float x => .ok x
    | _ => .error .constraint
  list read v := match v with
    | .list items => items.mapM read
    | _ => .error .constraint
  dict key read v := match v with
    | .obj fields => fields.mapM fun p => do return (← key (.str p.1), ← read p.2)
    | _ => .error .constraint
  model keys v := match v with
    | .obj fields => if fields.all fun p => p.1 ∈ keys then .ok fields else .error .constraint
    | _ => .error .constraint

theorem verbatim_strict : verbatim.Strict where
  str {_ v _} h := by
    cases v with
    | str t => exact congrArg _ (Except.ok.inj h)
    | _ => cases h
  text _ _ _ := rfl
  bool _ := rfl
  int _ := rfl
  float _ := rfl
  list {_ _ v _} := by
    cases v with
    | list items =>
      refine mapM_ok_iff.trans ⟨fun h => ⟨items, rfl, h⟩, ?_⟩
      rintro ⟨_, hitems, h⟩
      exact Json.list.inj hitems ▸ h
    | _ => exact iff_of_false (by rintro ⟨⟩) (by rintro ⟨_, ⟨⟩, -⟩)
  dict {_ key read v _} := by
    have hitem : ∀ (p : Str × Json) q, (do return (← key (.str p.1), ← read p.2) : Except Rejection _) = .ok q ↔
        key (.str p.1) = .ok q.1 ∧ read p.2 = .ok q.2 := by
      intro p q
      constructor
      · intro h
        obtain ⟨k, hk, h⟩ := bind_ok h
        obtain ⟨x, hx, h⟩ := bind_ok h
        obtain rfl := Except.ok.inj h
        exact ⟨hk, hx⟩
      · rintro ⟨hk, hx⟩
        rw [hk, hx]
        rfl
    cases v with
    | obj fields =>
      refine mapM_ok_iff.trans ⟨fun h => ⟨fields, rfl, h.imp fun p q => (hitem p q).1⟩, ?_⟩
      rintro ⟨_, hfields, h⟩
      exact Json.obj.inj hfields ▸ h.imp fun p q => (hitem p q).2
    | _ => exact iff_of_false (by rintro ⟨⟩) (by rintro ⟨_, ⟨⟩, -⟩)
  model {keys v fields} := by
    cases v with
    | obj fields' =>
      change (if _ then _ else _) = _ ↔ _
      split
      · rename_i hkeys
        simp only [List.all_eq_true, decide_eq_true_eq] at hkeys
        constructor
        · intro h
          obtain rfl := Except.ok.inj h
          exact ⟨rfl, hkeys⟩
        · rintro ⟨h, -⟩
          rw [Json.obj.inj h]
      · rename_i hkeys
        refine iff_of_false (by rintro ⟨⟩) ?_
        rintro ⟨h, hall⟩
        obtain rfl := Json.obj.inj h
        simp only [List.all_eq_true, decide_eq_true_eq] at hkeys
        exact hkeys hall
    | _ => exact iff_of_false (by rintro ⟨⟩) (by rintro ⟨⟨⟩, -⟩)

namespace Demo

/-- Header names that are in lower case, and nothing to parse. -/
def lib : Lib where
  lower := id
  float _ := none
  parsedate _ := none
  loads _ _ := .error .valueError
  loadsBytes _ _ := .error .valueError
  dumps _ := .error .valueError
  render _ := .error .valueError

/-- One model with one replica. -/
def config : Config where
  server := { apiKey := lit "secret" }
  models := [(lit "m", {
    modelId := lit "backend"
    endpoints := [{ name := lit "a", baseUrl := lit "http://localhost/v1" }] })]

/-- The same, with the key of the gateway in a variable. -/
def document : Json := .obj [
  (lit "server", .obj [(lit "api_key", .obj [(lit "env", .str (lit "KEY"))])]),
  (lit "models", .obj [(lit "m", .obj [
    (lit "model_id", .str (lit "backend")),
    (lit "endpoints", .list [.obj [
      (lit "name", .str (lit "a")), (lit "base_url", .str (lit "http://localhost/v1"))]])])])]

/-- An environment in which it is set. -/
def environ (name : Str) : Variable := if name = lit "KEY" then .set (lit "secret") else .unset

theorem document_loads : load lib verbatim localhost environ document = .ok config.settings := by
  with_unfolding_all rfl

end Demo

/-- It is loaded, so its settings are in order. -/
theorem load_sound_keyed :
    (∀ name, Refers Demo.document name → Readable Demo.environ name) ∧
      Accepted Demo.lib localhost Demo.config.settings ∧
      ∃ doc', resolve Demo.environ Demo.document = .ok doc' ∧ Spelled doc' :=
  (load_sound Demo.lib verbatim verbatim_strict localhost Demo.environ Demo.document).1 _ Demo.document_loads

end Configuration
end SwitchyardGateway
