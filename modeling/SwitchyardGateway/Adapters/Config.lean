/-
# Configuration

`adapters/config.py`, from a document that pydantic has read into the fields of its
classes to the `Settings` the application runs on: the constraints on single fields,
the validators in the order pydantic runs them, and `settings()`.

What passes is `Accepted`, and nothing else does (`validate_ok_iff`).

`urlsplit` is the standard library's; its `ValueError` is an error with a text.
-/

import SwitchyardGateway.Domain
import SwitchyardGateway.Python.Raising

namespace SwitchyardGateway
namespace Configuration

open Python

/-- What `urllib.parse.urlsplit` makes of a URL. -/
structure SplitUrl where
  scheme : Str
  hostname : Option Str
  username : Option Str
  password : Option Str
  query : Str
  fragment : Str

/-- `EndpointConfig`. -/
structure EndpointConfig where
  name : Str
  baseUrl : Str
  apiKey : Str := []

/-- `ModelConfig`. -/
structure ModelConfig where
  modelId : Str
  endpoints : List EndpointConfig
  contextWindow : ℤ := 131072
  defaults : Payload := []

/-- `PairConfig`. -/
structure PairConfig where
  capable : Str
  efficient : Str

/-- `StageConfig`. -/
structure StageConfig where
  picker : Str := lit "efficient_first"
  confidenceThreshold : Flt := .fin (1 / 2)
  recentWindow : ℤ := 3
  onlyOnWrongSignalEscalation : Bool := true
  escalationNote : Str := lit "The efficient tier failed; continue from its work."
  deescalationNote : Str := lit "The capable tier completed the recovery."
  capableSystemPrompt : Str := lit "Handle this request as the capable tier."
  efficientSystemPrompt : Str := lit "Handle this request as the efficient tier."

/-- `CompressionConfig`. -/
structure CompressionConfig where
  enabled : Bool := true
  workers : ℤ := 2

/-- `ServerConfig`. -/
structure ServerConfig where
  apiKey : Str
  host : Str := lit "127.0.0.1"
  port : ℤ := 4000
  maxRequestBytes : ℤ := 16 * 1024 * 1024

/-- `Config`. -/
structure Config where
  server : ServerConfig
  models : Dict Str ModelConfig
  pairs : Dict Str PairConfig := []
  stage : StageConfig := {}
  compression : CompressionConfig := {}
  cooldownSeconds : ℚ := 30
  connectTimeout : ℚ := 5
  readTimeout : ℚ := 300
  forwardHeaders : List Str := [lit "x-session-id", lit "x-opencode-session"]

/-- Why a document is rejected: a constraint of a field, or a validator's
`ValueError`. -/
inductive Rejection where
  | constraint
  | value (message : String)
  deriving DecidableEq

/-- `if condition: raise ValueError(message)`. -/
def refuse (condition : Bool) (message : String) : Except Rejection Unit :=
  if condition then .error (.value message) else .ok ()

/-- A constraint that pydantic checks on a field. -/
def constrain (condition : Bool) : Except Rejection Unit :=
  if condition then .ok () else .error .constraint

/-- `[A-Za-z0-9]`. -/
def isAlnum (c : ℕ) : Bool := (48 ≤ c && c ≤ 57) || (65 ≤ c && c ≤ 90) || (97 ≤ c && c ≤ 122)

/-- `Label`: a letter or digit, and up to 127 more of these or of `-_.:/`. -/
def isLabel : Str → Bool
  | [] => false
  | c :: cs => isAlnum c && cs.length ≤ 127 && cs.all fun c => isAlnum c || c ∈ lit "-_.:/"

/-- The names that may not be forwarded. -/
def forbidden : List Str :=
  ["authorization", "proxy-authorization", "host", "content-length", "connection",
    "transfer-encoding", "cookie", "content-type", "accept-encoding", "x-headroom-bypass"].map lit

/-- The keys of a request that a model's defaults may not set. -/
def gatewayOwned : List Str := ["model", "messages", "stream"].map lit

section

variable (lib : Lib) (urlsplit : Str → Except String SplitUrl)

/-- `EndpointConfig.validate_url`. -/
def EndpointConfig.validateUrl (endpoint : EndpointConfig) : Except Rejection Unit := do
  let url ← (urlsplit endpoint.baseUrl).mapError .value
  refuse (url.scheme ∉ [lit "http", lit "https"] || url.hostname.getD [] = [] ||
    url.username.getD [] ≠ [] || url.password.getD [] ≠ [] || url.query ≠ [] || url.fragment ≠ [])
    "invalid endpoint URL"

/-- The constraints and the validator of `EndpointConfig`. -/
def EndpointConfig.validate (endpoint : EndpointConfig) : Except Rejection Unit := do
  constrain (isLabel endpoint.name)
  endpoint.validateUrl urlsplit

/-- `ModelConfig.validate_endpoints`. -/
def ModelConfig.validateEndpoints (model : ModelConfig) : Except Rejection Unit := do
  refuse (!decide (model.endpoints.map EndpointConfig.name).Nodup) "duplicate endpoint names"
  refuse (gatewayOwned.any fun key => (model.defaults.lookup key).isSome) "invalid model defaults"

/-- The constraints and the validators of `ModelConfig`. -/
def ModelConfig.validate (model : ModelConfig) : Except Rejection Unit := do
  constrain (model.modelId ≠ [])
  model.endpoints.forM (EndpointConfig.validate urlsplit)
  constrain (!model.endpoints.isEmpty)
  constrain (0 < model.contextWindow)
  model.validateEndpoints

/-- The constraints of `PairConfig`. -/
def PairConfig.validate (pair : PairConfig) : Except Rejection Unit := do
  constrain (isLabel pair.capable)
  constrain (isLabel pair.efficient)

/-- The constraints of `StageConfig`.  A threshold is refused for being below 0 or above
1, and a NaN is neither. -/
def StageConfig.validate (stage : StageConfig) : Except Rejection Unit := do
  constrain (stage.picker ∈ [lit "efficient_first", lit "capable_first"])
  constrain (!stage.confidenceThreshold.lt (.fin 0) && !Flt.lt (.fin 1) stage.confidenceThreshold)
  constrain (0 < stage.recentWindow)

/-- The constraints of `CompressionConfig`. -/
def CompressionConfig.validate (compression : CompressionConfig) : Except Rejection Unit :=
  constrain (1 ≤ compression.workers && compression.workers ≤ 32)

/-- The constraints of `ServerConfig`. -/
def ServerConfig.validate (server : ServerConfig) : Except Rejection Unit := do
  constrain (server.apiKey ≠ [])
  constrain (1 ≤ server.port && server.port ≤ 65535)
  constrain (0 < server.maxRequestBytes)

/-- The loop of `Config.validate_references` over the pairs. -/
def Config.validatePair (config : Config) (pair : PairConfig) : Except Rejection Unit := do
  refuse (pair.capable = pair.efficient) "pair tiers must differ"
  refuse ((config.models.lookup pair.capable).isNone || (config.models.lookup pair.efficient).isNone)
    "unknown pair model"

/-- `Config.validate_references`, which also lower-cases the forwarded names. -/
def Config.validateReferences (config : Config) : Except Rejection Config := do
  refuse (config.models.any fun m => (config.pairs.lookup m.1).isSome)
    "model and pair labels collide"
  config.pairs.forM fun pair => config.validatePair pair.2
  let config := { config with forwardHeaders := config.forwardHeaders.map lib.lower }
  refuse (config.forwardHeaders.any fun header =>
      !(lit "x-").isPrefixOf header || header ∈ forbidden)
    "only application x- headers may be forwarded"
  return config

/-- `Config.model_validate`, once the fields have their types. -/
def Config.validate (config : Config) : Except Rejection Config := do
  config.server.validate
  config.models.forM fun model => do
    constrain (isLabel model.1)
    model.2.validate urlsplit
  constrain (!config.models.isEmpty)
  config.pairs.forM fun pair => do
    constrain (isLabel pair.1)
    pair.2.validate
  config.stage.validate
  config.compression.validate
  constrain (0 < config.cooldownSeconds)
  constrain (0 < config.connectTimeout)
  constrain (0 < config.readTimeout)
  config.validateReferences lib

/-- `Endpoint(**ep.model_dump())`. -/
def EndpointConfig.endpoint (endpoint : EndpointConfig) : Endpoint where
  name := endpoint.name
  baseUrl := endpoint.baseUrl
  apiKey := endpoint.apiKey

/-- `Model(name, …)`. -/
def ModelConfig.model (name : Str) (model : ModelConfig) : Model where
  name := name
  modelId := model.modelId
  endpoints := model.endpoints.map EndpointConfig.endpoint
  contextWindow := model.contextWindow
  defaults := model.defaults

/-- `Pair(name, …)`. -/
def PairConfig.pair (name : Str) (pair : PairConfig) : Pair where
  name := name
  capable := pair.capable
  efficient := pair.efficient

/-- `StagePolicy(**self.stage.model_dump())`. -/
def StageConfig.policy (stage : StageConfig) : StagePolicy where
  picker := stage.picker
  confidenceThreshold := stage.confidenceThreshold
  recentWindow := stage.recentWindow
  onlyOnWrongSignalEscalation := stage.onlyOnWrongSignalEscalation
  escalationNote := stage.escalationNote
  deescalationNote := stage.deescalationNote
  capableSystemPrompt := stage.capableSystemPrompt
  efficientSystemPrompt := stage.efficientSystemPrompt

/-- `Config.settings`. -/
def Config.settings (config : Config) : Settings where
  models := config.models.map fun m => (m.1, m.2.model m.1)
  pairs := config.pairs.map fun p => (p.1, p.2.pair p.1)
  apiKey := config.server.apiKey
  stage := config.stage.policy
  compression := config.compression.enabled
  compressionWorkers := config.compression.workers
  cooldownSeconds := config.cooldownSeconds
  connectTimeout := config.connectTimeout
  readTimeout := config.readTimeout
  forwardHeaders := config.forwardHeaders
  host := config.server.host
  port := config.server.port
  maxRequestBytes := config.server.maxRequestBytes.toNat

/-- `load_config`, once the file has been read: every rejection is one error. -/
def loadConfig (config : Config) : Except Err Settings :=
  match config.validate lib urlsplit with
  | .ok config => .ok config.settings
  | .error _ => .error (gatewayError "invalid_configuration" 500)

end

/-! ### What an accepted configuration guarantees -/

/-- What the application may rely on. -/
structure Wellformed (settings : Settings) : Prop where
  labelled : ∀ label model, settings.models.lookup label = some model → model.name = label
  served : ∀ label model, settings.models.lookup label = some model → model.endpoints ≠ []
  distinct : ∀ label model, settings.models.lookup label = some model →
    (model.endpoints.map Endpoint.name).Nodup
  defaults : ∀ label model, settings.models.lookup label = some model →
    ∀ key ∈ gatewayOwned, model.defaults.lookup key = none
  paired : ∀ label pair, settings.pairs.lookup label = some pair →
    pair.capable ≠ pair.efficient ∧ (settings.models.lookup pair.capable).isSome ∧
      (settings.models.lookup pair.efficient).isSome
  apart : ∀ label, (settings.models.lookup label).isSome → settings.pairs.lookup label = none
  forwarded : ∀ name ∈ settings.forwardHeaders, lit "x-" <+: name ∧ name ∉ forbidden
  cooldown : 0 < settings.cooldownSeconds
  secret : settings.apiKey ≠ []

/-- An absolute HTTP URL without credentials, query and fragment. -/
structure SplitUrl.Absolute (url : SplitUrl) : Prop where
  scheme : url.scheme ∈ [lit "http", lit "https"]
  hostname : url.hostname.getD [] ≠ []
  username : url.username.getD [] = []
  password : url.password.getD [] = []
  query : url.query = []
  fragment : url.fragment = []

/-- What the classes ask of a replica. -/
structure EndpointAccepted (urlsplit : Str → Except String SplitUrl) (endpoint : Endpoint) : Prop where
  label : isLabel endpoint.name
  url : ∃ url, urlsplit endpoint.baseUrl = .ok url ∧ url.Absolute

/-- What they ask of a model. -/
structure ModelAccepted (urlsplit : Str → Except String SplitUrl) (label : Str) (model : Model) : Prop where
  name : model.name = label
  label : isLabel label
  modelId : model.modelId ≠ []
  endpoints : ∀ endpoint ∈ model.endpoints, EndpointAccepted urlsplit endpoint
  served : model.endpoints ≠ []
  distinct : (model.endpoints.map Endpoint.name).Nodup
  contextWindow : 0 < model.contextWindow
  defaults : ∀ key ∈ gatewayOwned, model.defaults.lookup key = none

/-- What they ask of a pair, which names models of the document. -/
structure PairAccepted (models : Dict Str Model) (label : Str) (pair : Pair) : Prop where
  name : pair.name = label
  label : isLabel label
  tiers : isLabel pair.capable ∧ isLabel pair.efficient
  differ : pair.capable ≠ pair.efficient
  known : (models.lookup pair.capable).isSome ∧ (models.lookup pair.efficient).isSome

/-- What they ask of the stage policy. -/
structure StageAccepted (stage : StagePolicy) : Prop where
  picker : stage.picker ∈ [lit "efficient_first", lit "capable_first"]
  threshold : (∃ q : ℚ, stage.confidenceThreshold = .fin q ∧ 0 ≤ q ∧ q ≤ 1) ∨
    ∃ object, stage.confidenceThreshold = .nan object
  recentWindow : 0 < stage.recentWindow

/-- Settings with every label, bound and reference in order. -/
structure Accepted (lib : Lib) (urlsplit : Str → Except String SplitUrl) (settings : Settings) : Prop where
  secret : settings.apiKey ≠ []
  port : 1 ≤ settings.port ∧ settings.port ≤ 65535
  maxRequestBytes : 0 < settings.maxRequestBytes
  models : ∀ m ∈ settings.models, ModelAccepted urlsplit m.1 m.2
  nonempty : settings.models ≠ []
  pairs : ∀ p ∈ settings.pairs, PairAccepted settings.models p.1 p.2
  apart : ∀ m ∈ settings.models, settings.pairs.lookup m.1 = none
  stage : StageAccepted settings.stage
  workers : 1 ≤ settings.compressionWorkers ∧ settings.compressionWorkers ≤ 32
  cooldown : 0 < settings.cooldownSeconds
  connectTimeout : 0 < settings.connectTimeout
  readTimeout : 0 < settings.readTimeout
  lowered : ∀ name ∈ settings.forwardHeaders, ∃ header, lib.lower header = name
  forwarded : ∀ name ∈ settings.forwardHeaders, lit "x-" <+: name ∧ name ∉ forbidden

section

variable {lib : Lib} {urlsplit : Str → Except String SplitUrl}

theorem refuse_ok {condition : Bool} {message : String} :
    refuse condition message = .ok () ↔ condition = false := by
  cases condition <;> simp [refuse]

theorem constrain_ok {condition : Bool} : constrain condition = .ok () ↔ condition = true := by
  cases condition <;> simp [constrain]

/-! ### What each class lets through -/

theorem EndpointConfig.validateUrl_ok {endpoint : EndpointConfig} :
    endpoint.validateUrl urlsplit = .ok () ↔ ∃ url, urlsplit endpoint.baseUrl = .ok url ∧ url.Absolute := by
  unfold EndpointConfig.validateUrl
  cases urlsplit endpoint.baseUrl with
  | error message =>
    refine iff_of_false ?_ ?_
    · rintro ⟨⟩
    · rintro ⟨_, ⟨⟩, -⟩
  | ok url =>
    change refuse _ _ = .ok () ↔ _
    rw [refuse_ok]
    simp only [Bool.or_eq_false_iff, decide_eq_false_iff_not, not_not]
    constructor
    · rintro ⟨⟨⟨⟨⟨hscheme, hhost⟩, huser⟩, hpassword⟩, hquery⟩, hfragment⟩
      exact ⟨url, rfl, hscheme, hhost, huser, hpassword, hquery, hfragment⟩
    · rintro ⟨_, hurl, hscheme, hhost, huser, hpassword, hquery, hfragment⟩
      obtain rfl := Except.ok.inj hurl
      exact ⟨⟨⟨⟨⟨hscheme, hhost⟩, huser⟩, hpassword⟩, hquery⟩, hfragment⟩

theorem EndpointConfig.validate_ok {endpoint : EndpointConfig} :
    endpoint.validate urlsplit = .ok () ↔ EndpointAccepted urlsplit endpoint.endpoint := by
  rw [EndpointConfig.validate, seq_ok, constrain_ok, validateUrl_ok]
  exact ⟨fun h => ⟨h.1, h.2⟩, fun h => ⟨h.label, h.url⟩⟩

theorem ModelConfig.validateEndpoints_ok {model : ModelConfig} :
    model.validateEndpoints = .ok () ↔ (model.endpoints.map EndpointConfig.name).Nodup ∧
      ∀ key ∈ gatewayOwned, model.defaults.lookup key = none := by
  rw [ModelConfig.validateEndpoints, seq_ok, refuse_ok, refuse_ok, List.any_eq_false]
  simp only [Bool.not_eq_false', decide_eq_true_eq, Bool.not_eq_true, Option.isSome_eq_false_iff,
    Option.isNone_iff_eq_none]

/-- A model of the document with its label, read on what `settings` makes of it. -/
theorem ModelConfig.validate_ok {label : Str} {model : ModelConfig} :
    (isLabel label = true ∧ model.validate urlsplit = .ok ()) ↔ ModelAccepted urlsplit label (model.model label) := by
  have hnames : (model.model label).endpoints.map Endpoint.name = model.endpoints.map EndpointConfig.name := by
    rw [ModelConfig.model, List.map_map]
    rfl
  have hendpoints : (∀ endpoint ∈ (model.model label).endpoints, EndpointAccepted urlsplit endpoint) ↔
      ∀ endpoint ∈ model.endpoints, endpoint.validate urlsplit = .ok () := by
    rw [ModelConfig.model, List.forall_mem_map]
    exact forall₂_congr fun _ _ => EndpointConfig.validate_ok.symm
  rw [ModelConfig.validate, seq_ok, seq_ok, seq_ok, seq_ok, validateEndpoints_ok, forM_ok, constrain_ok,
    constrain_ok, constrain_ok, ← hendpoints, ← hnames]
  constructor
  · rintro ⟨hlabel, hid, hall, hserved, hwindow, hdistinct, hdefaults⟩
    exact ⟨rfl, hlabel, of_decide_eq_true hid, hall, by simpa [ModelConfig.model] using hserved, hdistinct,
      of_decide_eq_true hwindow, hdefaults⟩
  · rintro ⟨-, hlabel, hid, hall, hserved, hdistinct, hwindow, hdefaults⟩
    exact ⟨hlabel, decide_eq_true hid, hall, by simpa [ModelConfig.model] using hserved, decide_eq_true hwindow,
      hdistinct, hdefaults⟩

theorem StageConfig.validate_ok {stage : StageConfig} :
    stage.validate = .ok () ↔ StageAccepted stage.policy := by
  have hthreshold : (!stage.confidenceThreshold.lt (.fin 0) && !Flt.lt (.fin 1) stage.confidenceThreshold) = true ↔
      (∃ q : ℚ, stage.confidenceThreshold = .fin q ∧ 0 ≤ q ∧ q ≤ 1) ∨
        ∃ object, stage.confidenceThreshold = .nan object := by
    cases stage.confidenceThreshold with
    | fin q =>
      simp only [Flt.lt, Bool.and_eq_true, Bool.not_eq_true', decide_eq_false_iff_not, Rat.not_lt, Flt.fin.injEq,
        exists_eq_left', reduceCtorEq, exists_false, or_false]
    | inf negative => cases negative <;> simp [Flt.lt]
    | nan object => simp [Flt.lt]
  rw [StageConfig.validate, seq_ok, seq_ok, constrain_ok, constrain_ok, constrain_ok, hthreshold]
  constructor
  · rintro ⟨hpicker, hthreshold, hwindow⟩
    exact ⟨of_decide_eq_true hpicker, hthreshold, of_decide_eq_true hwindow⟩
  · rintro ⟨hpicker, hthreshold, hwindow⟩
    exact ⟨decide_eq_true hpicker, hthreshold, decide_eq_true hwindow⟩

theorem ServerConfig.validate_ok {server : ServerConfig} :
    server.validate = .ok () ↔
      server.apiKey ≠ [] ∧ (1 ≤ server.port ∧ server.port ≤ 65535) ∧ 0 < server.maxRequestBytes.toNat := by
  have hbytes : 0 < server.maxRequestBytes ↔ 0 < server.maxRequestBytes.toNat := by omega
  rw [ServerConfig.validate, seq_ok, seq_ok, constrain_ok, constrain_ok, constrain_ok, ← hbytes]
  simp only [decide_eq_true_eq, Bool.and_eq_true]

theorem CompressionConfig.validate_ok {compression : CompressionConfig} :
    compression.validate = .ok () ↔ 1 ≤ compression.workers ∧ compression.workers ≤ 32 := by
  rw [CompressionConfig.validate, constrain_ok]
  simp only [decide_eq_true_eq, Bool.and_eq_true]

/-! ### What the document as a whole lets through -/

theorem settings_models_lookup (config : Config) (label : Str) :
    config.settings.models.lookup label = (config.models.lookup label).map (ModelConfig.model label) :=
  Dict.lookup_map_item ModelConfig.model config.models label

theorem settings_pairs_lookup (config : Config) (label : Str) :
    config.settings.pairs.lookup label = (config.pairs.lookup label).map (PairConfig.pair label) :=
  Dict.lookup_map_item PairConfig.pair config.pairs label

theorem validatePair_ok {config : Config} {pair : PairConfig} :
    config.validatePair pair = .ok () ↔ pair.capable ≠ pair.efficient ∧
      (config.settings.models.lookup pair.capable).isSome ∧ (config.settings.models.lookup pair.efficient).isSome := by
  rw [Config.validatePair, seq_ok, refuse_ok, refuse_ok, settings_models_lookup, settings_models_lookup,
    Option.isSome_map, Option.isSome_map]
  simp only [decide_eq_false_iff_not, Bool.or_eq_false_iff, Option.isNone_eq_false_iff]

/-- The models and the pairs are those of the document, and the forwarded names are
lower-cased. -/
def Config.lowered (lib : Lib) (config : Config) : Config :=
  { config with forwardHeaders := config.forwardHeaders.map lib.lower }

theorem validateReferences_ok {config config' : Config} :
    config.validateReferences lib = .ok config' ↔
      (∀ m ∈ config.settings.models, config.settings.pairs.lookup m.1 = none) ∧
      (∀ p ∈ config.pairs, config.validatePair p.2 = .ok ()) ∧
      (∀ header ∈ (config.lowered lib).forwardHeaders, lit "x-" <+: header ∧ header ∉ forbidden) ∧
      config' = config.lowered lib := by
  have hapart : (∀ m ∈ config.settings.models, config.settings.pairs.lookup m.1 = none) ↔
      ∀ m ∈ config.models, ¬ (config.pairs.lookup m.1).isSome = true := by
    rw [Config.settings, List.forall_mem_map]
    refine forall₂_congr fun m _ => ?_
    rw [← Config.settings, settings_pairs_lookup, Option.map_eq_none_iff, Option.not_isSome_iff_eq_none]
  have hforwarded : (∀ header ∈ (config.lowered lib).forwardHeaders, lit "x-" <+: header ∧ header ∉ forbidden) ↔
      ∀ header ∈ (config.lowered lib).forwardHeaders,
        ¬ (!(lit "x-").isPrefixOf header || header ∈ forbidden) = true := by
    refine forall₂_congr fun header _ => ?_
    simp [← List.isPrefixOf_iff_prefix]
  rw [Config.validateReferences, seq_ok, seq_ok, hapart, hforwarded, ← List.any_eq_false, ← List.any_eq_false,
    forM_ok, refuse_ok]
  refine and_congr_right fun _ => and_congr_right fun _ => ?_
  rw [seq_ok, refuse_ok]
  exact and_congr_right fun _ => ⟨fun h => (Except.ok.inj h).symm, fun h => h ▸ rfl⟩

/-- A pair of the document with its label. -/
theorem PairConfig.validate_ok {config : Config} {label : Str} {pair : PairConfig} :
    ((isLabel label = true ∧ pair.validate = .ok ()) ∧ config.validatePair pair = .ok ()) ↔
      PairAccepted config.settings.models label (pair.pair label) := by
  rw [PairConfig.validate, seq_ok, constrain_ok, constrain_ok, validatePair_ok]
  constructor
  · rintro ⟨⟨hlabel, htiers⟩, hdiffer, hknown⟩
    exact ⟨rfl, hlabel, htiers, hdiffer, hknown⟩
  · rintro ⟨-, hlabel, htiers, hdiffer, hknown⟩
    exact ⟨⟨hlabel, htiers⟩, hdiffer, hknown⟩

/-- **Validation is exact.**  A document passes if its settings are in order, and all that
changes is the case of the forwarded names. -/
theorem validate_ok_iff {config config' : Config} :
    config.validate lib urlsplit = .ok config' ↔
      config' = config.lowered lib ∧ Accepted lib urlsplit config'.settings := by
  have hmodels : (∀ m ∈ config.settings.models, ModelAccepted urlsplit m.1 m.2) ↔ ∀ m ∈ config.models,
      (do constrain (isLabel m.1); m.2.validate urlsplit) = .ok () := by
    rw [Config.settings, List.forall_mem_map]
    refine forall₂_congr fun m _ => ?_
    rw [seq_ok, constrain_ok]
    exact ModelConfig.validate_ok.symm
  have hpairs : (∀ p ∈ config.settings.pairs, PairAccepted config.settings.models p.1 p.2) ↔
      (∀ p ∈ config.pairs, (do constrain (isLabel p.1); p.2.validate) = .ok ()) ∧
        ∀ p ∈ config.pairs, config.validatePair p.2 = .ok () := by
    rw [← forall₂_and, Config.settings, List.forall_mem_map]
    refine forall₂_congr fun p _ => ?_
    rw [seq_ok, constrain_ok]
    exact PairConfig.validate_ok.symm
  have hnonempty : config.settings.models ≠ [] ↔ (!config.models.isEmpty) = true := by
    simp [Config.settings]
  rw [Config.validate, seq_ok, seq_ok, seq_ok, seq_ok, seq_ok, seq_ok, seq_ok, seq_ok, seq_ok,
    validateReferences_ok, ServerConfig.validate_ok, forM_ok, forM_ok, StageConfig.validate_ok,
    CompressionConfig.validate_ok, constrain_ok, constrain_ok, constrain_ok, constrain_ok, ← hmodels, ← hnonempty]
  constructor
  · rintro ⟨⟨hsecret, hport, hbytes⟩, hall, hsome, hlabels, hstage, hworkers, hcooldown, hconnect, hread, hapart,
      hvalid, hforwarded, rfl⟩
    refine ⟨rfl, ?_⟩
    exact {
      secret := hsecret
      port := hport
      maxRequestBytes := hbytes
      models := hall
      nonempty := hsome
      pairs := hpairs.2 ⟨hlabels, hvalid⟩
      apart := hapart
      stage := hstage
      workers := hworkers
      cooldown := of_decide_eq_true hcooldown
      connectTimeout := of_decide_eq_true hconnect
      readTimeout := of_decide_eq_true hread
      lowered := by
        rintro name hname
        obtain ⟨header, -, hheader⟩ := List.mem_map.1 hname
        exact ⟨header, hheader⟩
      forwarded := hforwarded }
  · rintro ⟨rfl, h⟩
    obtain ⟨hlabels, hvalid⟩ := hpairs.1 h.pairs
    exact ⟨⟨h.secret, h.port, h.maxRequestBytes⟩, h.models, h.nonempty, hlabels, h.stage, h.workers,
      decide_eq_true h.cooldown, decide_eq_true h.connectTimeout, decide_eq_true h.readTimeout, h.apart, hvalid,
      h.forwarded, rfl⟩

/-- **Every default passes its own checks.**  A document that has an API key and models says
enough. -/
theorem defaults_accepted {apiKey : Str} {models : Dict Str ModelConfig} (hsecret : apiKey ≠ []) (hsome : models ≠ [])
    (hmodels : ∀ m ∈ models, ModelAccepted urlsplit m.1 (m.2.model m.1))
    (hlower : ∀ header ∈ [lit "x-session-id", lit "x-opencode-session"], lib.lower header = header) :
    Accepted lib urlsplit ({ server := { apiKey := apiKey }, models := models } : Config).settings where
  secret := hsecret
  port := (by decide : (1 : ℤ) ≤ 4000 ∧ (4000 : ℤ) ≤ 65535)
  maxRequestBytes := (by decide : 0 < (16 * 1024 * 1024 : ℤ).toNat)
  models := List.forall_mem_map.2 hmodels
  nonempty h := hsome (List.map_eq_nil_iff.1 h)
  pairs := by simp [Config.settings]
  apart _ _ := rfl
  stage := {
    picker := List.mem_cons_self
    threshold := .inl ⟨1 / 2, rfl, by decide +kernel, by decide +kernel⟩
    recentWindow := (by decide : (0 : ℤ) < 3) }
  workers := (by decide : (1 : ℤ) ≤ 2 ∧ (2 : ℤ) ≤ 32)
  cooldown := (by decide +kernel : (0 : ℚ) < 30)
  connectTimeout := (by decide +kernel : (0 : ℚ) < 5)
  readTimeout := (by decide +kernel : (0 : ℚ) < 300)
  lowered name hname := ⟨name, hlower name hname⟩
  forwarded := by
    have hforwarded : ∀ header ∈ [lit "x-session-id", lit "x-opencode-session"],
        (lit "x-").isPrefixOf header = true ∧ header ∉ forbidden := by decide
    exact fun name hname => (hforwarded name hname).imp_left List.isPrefixOf_iff_prefix.1

theorem Accepted.wellformed {settings : Settings} (h : Accepted lib urlsplit settings) : Wellformed settings where
  labelled _ _ hlookup := (h.models _ (Dict.mem_of_lookup hlookup)).name
  served _ _ hlookup := (h.models _ (Dict.mem_of_lookup hlookup)).served
  distinct _ _ hlookup := (h.models _ (Dict.mem_of_lookup hlookup)).distinct
  defaults _ _ hlookup := (h.models _ (Dict.mem_of_lookup hlookup)).defaults
  paired _ _ hlookup :=
    have hpair := h.pairs _ (Dict.mem_of_lookup hlookup)
    ⟨hpair.differ, hpair.known⟩
  apart label hsome := by
    obtain ⟨model, hmodel⟩ := Option.isSome_iff_exists.1 hsome
    exact h.apart _ (Dict.mem_of_lookup hmodel)
  forwarded := h.forwarded
  cooldown := h.cooldown
  secret := h.secret

/-- What is loaded is what the document says, if that is in order. -/
theorem loadConfig_ok {config : Config} {settings : Settings} :
    loadConfig lib urlsplit config = .ok settings ↔
      settings = (config.lowered lib).settings ∧ Accepted lib urlsplit settings := by
  unfold loadConfig
  cases hvalid : config.validate lib urlsplit with
  | ok config' =>
    obtain ⟨rfl, haccepted⟩ := validate_ok_iff.1 hvalid
    constructor
    · intro h
      obtain rfl := Except.ok.inj h
      exact ⟨rfl, haccepted⟩
    · rintro ⟨rfl, -⟩
      rfl
  | error rejection =>
    refine iff_of_false (by rintro ⟨⟩) ?_
    rintro ⟨rfl, haccepted⟩
    cases hvalid.symm.trans (validate_ok_iff.2 ⟨rfl, haccepted⟩)

/-- **An accepted configuration is wellformed.** -/
theorem loadConfig_wellformed {config : Config} {settings : Settings}
    (h : loadConfig lib urlsplit config = .ok settings) : Wellformed settings :=
  (loadConfig_ok.1 h).2.wellformed

end

/-- `urlsplit`, on the URL of the small deployments. -/
def localhost (_ : Str) : Except String SplitUrl :=
  .ok ⟨lit "http", some (lit "localhost"), none, none, [], []⟩

end Configuration
end SwitchyardGateway
