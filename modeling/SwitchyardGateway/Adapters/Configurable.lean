/-
# What can be configured

Which settings some document loads as.  They are accepted, pydantic takes their texts,
and no object that would have to say them looks like an environment reference: a label
`env` that stands alone, or defaults that hold a reference, cannot be configured
(`Configurable`).

All that is so can be: a document is written out field by field (`Config.dump`), and it
loads as the settings it was written from, in every environment (`load_exact`).
-/

import SwitchyardGateway.Adapters.Document

namespace SwitchyardGateway
namespace Configuration

open Python

/-- A text that pydantic reads. -/
def Pydantic.Takes (pydantic : Pydantic) (constrained : Bool) (s : Str) : Prop :=
  pydantic.str constrained (.str s) = .ok s

/-- Pydantic takes the texts of the settings that need not be ASCII. -/
structure Taken (lib : Lib) (pydantic : Pydantic) (settings : Settings) : Prop where
  secret : pydantic.Takes true settings.apiKey
  host : pydantic.Takes false settings.host
  modelIds : ∀ m ∈ settings.models, pydantic.Takes true m.2.modelId
  endpoints : ∀ m ∈ settings.models, ∀ endpoint ∈ m.2.endpoints,
    pydantic.Takes false endpoint.baseUrl ∧ pydantic.Takes false endpoint.apiKey
  defaults : ∀ m ∈ settings.models, ∀ p ∈ m.2.defaults, pydantic.Takes false p.1
  notes : pydantic.Takes false settings.stage.escalationNote ∧ pydantic.Takes false settings.stage.deescalationNote
  prompts : pydantic.Takes false settings.stage.capableSystemPrompt ∧
    pydantic.Takes false settings.stage.efficientSystemPrompt
  headers : ∀ name ∈ settings.forwardHeaders, ∃ header, lib.lower header = name ∧ pydantic.Takes false header

/-- No object that says the settings looks like a reference. -/
structure Unambiguous (settings : Settings) : Prop where
  models : ∀ m, settings.models ≠ [(lit "env", m)]
  pairs : ∀ p, settings.pairs ≠ [(lit "env", p)]
  defaults : ∀ m ∈ settings.models, ∀ name, ¬ Refers (.obj m.2.defaults) name

/-- Settings that a document can say. -/
structure Configurable (lib : Lib) (pydantic : Pydantic) (urlsplit : Str → Except String SplitUrl)
    (settings : Settings) : Prop where
  accepted : Accepted lib urlsplit settings
  taken : Taken lib pydantic settings
  unambiguous : Unambiguous settings

/-- The dictionaries of the settings are such as Python can hold. -/
structure Distinct (settings : Settings) : Prop where
  models : (settings.models.map Prod.fst).Nodup
  pairs : (settings.pairs.map Prod.fst).Nodup
  defaults : ∀ m ∈ settings.models, (Json.obj m.2.defaults).Proper

/-! ### Loaded settings -/

section

variable {pydantic : Pydantic} {doc name : Json} {α : Type} {read : Reader α} {fields : Payload} {key : String} {x : α}

/-- A document that refers to nothing holds no reference. -/
theorem reference?_of_free (h : ∀ name, ¬ Refers doc name) : reference? doc = none := by
  cases href : reference? doc with
  | none => rfl
  | some name => exact absurd ((refers_reference href name).2 rfl) (h name)

/-- Nor does a value inside it. -/
theorem free_field (h : ∀ name, ¬ Refers (.obj fields) name) {p : Str × Json} (hp : p ∈ fields) (name : Json) :
    ¬ Refers p.2 name :=
  fun hname => h name ((refers_obj (reference?_of_free h)).2 ⟨p, hp, hname⟩)

theorem free_lookup (h : ∀ name, ¬ Refers (.obj fields) name) {key : Str} {v : Json}
    (hv : fields.lookup key = some v) (name : Json) : ¬ Refers v name :=
  free_field h (Dict.mem_of_lookup hv) name

/-- A text that was read is one that pydantic takes. -/
theorem Pydantic.Strict.takes (h : pydantic.Strict) {constrained : Bool} {v : Json} {s : Str}
    (hs : pydantic.str constrained v = .ok s) : pydantic.Takes constrained s := by
  obtain rfl := h.str hs
  exact hs

theorem Pydantic.Strict.required (h : pydantic.Strict) {constrained : Bool} {s : Str}
    (hs : required fields key (pydantic.str constrained) = .ok s) : pydantic.Takes constrained s := by
  obtain ⟨v, -, hv⟩ := required_ok hs
  exact h.takes hv

/-- So is a default without surrogates. -/
theorem Pydantic.Strict.optional (h : pydantic.Strict) {constrained : Bool} {default s : Str}
    (hdefault : ∀ c ∈ default, c.isValidChar)
    (hs : optional fields key default (pydantic.str constrained) = .ok s) : pydantic.Takes constrained s := by
  rcases optional_ok hs with ⟨-, rfl⟩ | ⟨v, -, hv⟩
  · exact h.text constrained s hdefault
  · exact h.takes hv

/-- A dictionary that was read is not ambiguous. -/
theorem Pydantic.Strict.unambiguous (h : pydantic.Strict) {v : Json} (hfree : ∀ name, ¬ Refers v name)
    {constrained : Bool} {d : Dict Str α} (hd : pydantic.dict (pydantic.str constrained) read v = .ok d) (x : α) :
    d ≠ [(lit "env", x)] := by
  rintro rfl
  obtain ⟨fields, rfl, hfields⟩ := h.dict.1 hd
  rcases hfields with _ | ⟨⟨hkey, -⟩, _ | _⟩
  obtain heq := Json.str.inj (h.str hkey)
  refine reference?_eq_none.1 (reference?_of_free hfree) ?_
  rw [List.map_cons, List.map_nil, heq]

/-- Rewriting the values of a dictionary leaves it as many items, with their labels. -/
theorem map_ne_singleton {β : Type} {g : Str → α → β} {d : Dict Str α} {label : Str} (h : ∀ x, d ≠ [(label, x)])
    (y : β) : d.map (fun p => (p.1, g p.1 p.2)) ≠ [(label, y)] := by
  intro hd
  obtain ⟨⟨_, x⟩, rfl, heq⟩ := List.map_eq_singleton_iff.1 hd
  obtain rfl := congrArg Prod.fst heq
  exact h x rfl

/-- An item of a dictionary that was read. -/
theorem Pydantic.Strict.mem_dict (h : pydantic.Strict) {key : Reader Str} {v : Json} {d : Dict Str α}
    (hd : pydantic.dict key read v = .ok d) {q : Str × α} (hq : q ∈ d) :
    ∃ fields p, v = .obj fields ∧ p ∈ fields ∧ read p.2 = .ok q.2 := by
  obtain ⟨fields, rfl, hfields⟩ := h.dict.1 hd
  obtain ⟨p, hp, -, hread⟩ := exists_related hfields.flip hq
  exact ⟨fields, p, rfl, hp, hread⟩

/-- A payload is read as it is, if its keys are taken. -/
theorem Pydantic.Strict.payload (h : pydantic.Strict) {v : Json} {d : Payload} :
    pydantic.payload v = .ok d ↔ v = .obj d ∧ ∀ p ∈ d, pydantic.Takes false p.1 := by
  rw [Pydantic.payload, h.dict]
  constructor
  · rintro ⟨fields, rfl, hfields⟩
    have hsame : List.Forall₂ (fun p q => p = q ∧ pydantic.Takes false q.1) fields d :=
      hfields.imp fun p q hpq =>
        ⟨Prod.ext (Json.str.inj (h.str hpq.1)) (Except.ok.inj hpq.2), h.takes hpq.1⟩
    have hfields : fields = d := List.forall₂_eq_eq_eq ▸ hsame.imp fun _ _ hpq => hpq.1
    refine ⟨congrArg _ hfields, fun p hp => ?_⟩
    obtain ⟨q, -, -, hq⟩ := exists_related hsame.flip hp
    exact hq
  · rintro ⟨rfl, htakes⟩
    exact ⟨d, rfl, List.forall₂_same.2 fun p hp => ⟨htakes p hp, rfl⟩⟩

/-- What a model of a document says. -/
theorem ModelConfig.read_taken (h : pydantic.Strict) {model : ModelConfig} (hfree : ∀ name, ¬ Refers doc name)
    (hread : ModelConfig.read pydantic doc = .ok model) :
    pydantic.Takes true model.modelId ∧
      (∀ endpoint ∈ model.endpoints, pydantic.Takes false endpoint.baseUrl ∧ pydantic.Takes false endpoint.apiKey) ∧
      (∀ p ∈ model.defaults, pydantic.Takes false p.1) ∧ ∀ name, ¬ Refers (.obj model.defaults) name := by
  obtain ⟨fields, hfields, hid, hendpoints, -, hdefaults⟩ := ModelConfig.read_ok.1 hread
  obtain ⟨rfl, -⟩ := h.model.1 hfields
  refine ⟨h.required hid, fun endpoint hendpoint => ?_, ?_⟩
  · obtain ⟨v, -, hv⟩ := required_ok hendpoints
    obtain ⟨items, -, hitems⟩ := h.list.1 hv
    obtain ⟨item, -, hitem⟩ := exists_related hitems.flip hendpoint
    obtain ⟨_, -, -, hurl, hkey⟩ := EndpointConfig.read_ok.1 hitem
    exact ⟨h.required hurl, h.optional (by simp) hkey⟩
  · rcases optional_ok hdefaults with ⟨-, hnone⟩ | ⟨v, hlookup, hv⟩
    · rw [hnone]
      exact ⟨by simp, fun name => by simp [refers_obj (show reference? (.obj []) = none from rfl)]⟩
    · obtain ⟨rfl, htakes⟩ := h.payload.1 hv
      exact ⟨htakes, free_lookup hfree hlookup⟩

end

/-- **What a resolved document says** is taken and unambiguous. -/
theorem read_configurable (lib : Lib) {pydantic : Pydantic} (h : pydantic.Strict) {doc : Json} {config : Config}
    (hfree : ∀ name, ¬ Refers doc name) (hread : Config.read pydantic doc = .ok config) :
    Taken lib pydantic (config.lowered lib).settings ∧ Unambiguous (config.lowered lib).settings := by
  obtain ⟨fields, hfields, hserver, hmodels, hpairs, hstage, -, -, -, -, hheaders⟩ := Config.read_ok.1 hread
  obtain ⟨rfl, -⟩ := h.model.1 hfields
  -- each model of the settings is one that was read
  have hmodel : ∀ m ∈ (config.lowered lib).settings.models, ∃ v label model, (∀ name, ¬ Refers v name) ∧
      m = (label, model.model label) ∧ ModelConfig.read pydantic v = .ok model := by
    intro m hm
    obtain ⟨⟨label, model⟩, hmem, rfl⟩ := List.mem_map.1 hm
    obtain ⟨v, hlookup, hv⟩ := required_ok hmodels
    obtain ⟨_, p, rfl, hp, hpread⟩ := h.mem_dict hv hmem
    exact ⟨p.2, label, model, free_field (free_lookup hfree hlookup) hp, rfl, hpread⟩
  obtain ⟨hnotes, hprompts⟩ : (pydantic.Takes false config.stage.escalationNote ∧
      pydantic.Takes false config.stage.deescalationNote) ∧ pydantic.Takes false config.stage.capableSystemPrompt ∧
      pydantic.Takes false config.stage.efficientSystemPrompt := by
    rcases optional_ok hstage with ⟨-, hdefault⟩ | ⟨v, -, hv⟩
    · rw [hdefault]
      exact ⟨⟨h.text _ _ (by decide), h.text _ _ (by decide)⟩, h.text _ _ (by decide), h.text _ _ (by decide)⟩
    · obtain ⟨_, -, -, -, -, -, hescalation, hdeescalation, hcapable, hefficient⟩ := StageConfig.read_ok.1 hv
      exact ⟨⟨h.optional (by decide) hescalation, h.optional (by decide) hdeescalation⟩,
        h.optional (by decide) hcapable, h.optional (by decide) hefficient⟩
  obtain ⟨v, -, hv⟩ := required_ok hserver
  obtain ⟨_, -, hsecret, hhost, -⟩ := ServerConfig.read_ok.1 hv
  constructor
  · constructor
    case secret => exact h.required hsecret
    case host => exact h.optional (by decide) hhost
    case modelIds =>
      intro m hm
      obtain ⟨v, label, model, hv, rfl, hread⟩ := hmodel m hm
      exact (ModelConfig.read_taken h hv hread).1
    case endpoints =>
      intro m hm endpoint hendpoint
      obtain ⟨v, label, model, hv, rfl, hread⟩ := hmodel m hm
      obtain ⟨e, he, rfl⟩ := List.mem_map.1 hendpoint
      exact (ModelConfig.read_taken h hv hread).2.1 e he
    case defaults =>
      intro m hm
      obtain ⟨v, label, model, hv, rfl, hread⟩ := hmodel m hm
      exact (ModelConfig.read_taken h hv hread).2.2.1
    case notes => exact hnotes
    case prompts => exact hprompts
    case headers =>
      intro name hname
      obtain ⟨header, hheader, rfl⟩ := List.mem_map.1 hname
      refine ⟨header, rfl, ?_⟩
      rcases optional_ok hheaders with ⟨-, hdefault⟩ | ⟨v, -, hv⟩
      · rw [hdefault] at hheader
        have hascii : ∀ header ∈ [lit "x-session-id", lit "x-opencode-session"], ∀ c ∈ header, c.isValidChar := by
          decide
        exact h.text _ _ (hascii header hheader)
      · obtain ⟨items, -, hitems⟩ := h.list.1 hv
        obtain ⟨item, -, hitem⟩ := exists_related hitems.flip hheader
        exact h.takes hitem
  · constructor
    case models =>
      obtain ⟨v, hlookup, hv⟩ := required_ok hmodels
      exact map_ne_singleton (h.unambiguous (free_lookup hfree hlookup) hv)
    case pairs =>
      refine map_ne_singleton fun pair hpair => ?_
      rcases optional_ok hpairs with ⟨-, hdefault⟩ | ⟨v, hlookup, hv⟩
      · cases hdefault.symm.trans hpair
      · exact h.unambiguous (free_lookup hfree hlookup) hv pair hpair
    case defaults =>
      intro m hm
      obtain ⟨v, label, model, hv, rfl, hread⟩ := hmodel m hm
      exact (ModelConfig.read_taken h hv hread).2.2.2

/-! ### Writing a document -/

/-- A list, written item by item. -/
def dumpList {α : Type} (dump : α → Json) (xs : List α) : Json := .list (xs.map dump)

/-- A dictionary, written value by value. -/
def dumpDict {α : Type} (dump : α → Json) (d : Dict Str α) : Json :=
  .obj (d.map fun p => (p.1, dump p.2))

def EndpointConfig.dump (endpoint : EndpointConfig) : Payload :=
  [(lit "name", .str endpoint.name), (lit "base_url", .str endpoint.baseUrl),
    (lit "api_key", .str endpoint.apiKey)]

def ModelConfig.dump (model : ModelConfig) : Payload :=
  [(lit "model_id", .str model.modelId),
    (lit "endpoints", dumpList (fun endpoint => .obj endpoint.dump) model.endpoints),
    (lit "context_window", .int model.contextWindow), (lit "defaults", .obj model.defaults)]

def PairConfig.dump (pair : PairConfig) : Payload :=
  [(lit "capable", .str pair.capable), (lit "efficient", .str pair.efficient)]

def StageConfig.dump (stage : StageConfig) : Payload :=
  [(lit "picker", .str stage.picker), (lit "confidence_threshold", .float stage.confidenceThreshold),
    (lit "recent_window", .int stage.recentWindow),
    (lit "only_on_wrong_signal_escalation", .bool stage.onlyOnWrongSignalEscalation),
    (lit "escalation_note", .str stage.escalationNote),
    (lit "deescalation_note", .str stage.deescalationNote),
    (lit "capable_system_prompt", .str stage.capableSystemPrompt),
    (lit "efficient_system_prompt", .str stage.efficientSystemPrompt)]

def CompressionConfig.dump (compression : CompressionConfig) : Payload :=
  [(lit "enabled", .bool compression.enabled), (lit "workers", .int compression.workers)]

def ServerConfig.dump (server : ServerConfig) : Payload :=
  [(lit "api_key", .str server.apiKey), (lit "host", .str server.host), (lit "port", .int server.port),
    (lit "max_request_bytes", .int server.maxRequestBytes)]

/-- A document with every field written out. -/
def Config.dump (config : Config) : Payload :=
  [(lit "server", .obj config.server.dump),
    (lit "models", dumpDict (fun model => .obj model.dump) config.models),
    (lit "pairs", dumpDict (fun pair => .obj pair.dump) config.pairs), (lit "stage", .obj config.stage.dump),
    (lit "compression", .obj config.compression.dump),
    (lit "cooldown_seconds", .float (.fin config.cooldownSeconds)),
    (lit "connect_timeout", .float (.fin config.connectTimeout)),
    (lit "read_timeout", .float (.fin config.readTimeout)),
    (lit "forward_headers", dumpList .str config.forwardHeaders)]

/-! ### Reading it back -/

section

variable {pydantic : Pydantic} {α : Type} {read : Reader α} {dump : α → Json}

/-- An object that was written out has the keys of its class. -/
theorem Pydantic.Strict.dumped (h : pydantic.Strict) {fields : Payload} {keys : List Str}
    (hkeys : fields.map Prod.fst = keys) : pydantic.model keys (.obj fields) = .ok fields :=
  h.model.2 ⟨rfl, fun _ hp => hkeys ▸ List.mem_map_of_mem hp⟩

theorem readList_dump (h : pydantic.Strict) {xs : List α} (hdump : ∀ x ∈ xs, read (dump x) = .ok x) :
    pydantic.list read (dumpList dump xs) = .ok xs :=
  h.list.2 ⟨_, rfl, List.forall₂_map_left_iff.2 (List.forall₂_same.2 hdump)⟩

theorem readDict_dump (h : pydantic.Strict) {key : Reader Str} {d : Dict Str α}
    (hdump : ∀ p ∈ d, key (.str p.1) = .ok p.1 ∧ read (dump p.2) = .ok p.2) :
    pydantic.dict key read (dumpDict dump d) = .ok d :=
  h.dict.2 ⟨_, rfl, List.forall₂_map_left_iff.2 (List.forall₂_same.2 hdump)⟩

theorem Pydantic.Strict.finite (h : pydantic.Strict) (q : ℚ) : pydantic.finite (.float (.fin q)) = .ok q := by
  rw [Pydantic.finite, h.float]
  rfl

/-- A label is ASCII. -/
theorem Pydantic.Strict.label (h : pydantic.Strict) {s : Str} (hs : isLabel s = true) : pydantic.Takes true s := by
  have hascii : ∀ c, (isAlnum c || c ∈ lit "-_.:/") = true → c < 128 := by
    intro c hc
    simp [isAlnum, lit] at hc
    omega
  refine h.text true s fun c hc => .inl ?_
  have hc' : c < 128 := by
    cases s with
    | nil => cases hc
    | cons d s =>
      simp only [isLabel, Bool.and_eq_true, List.all_eq_true] at hs
      rcases List.mem_cons.1 hc with rfl | hc
      · exact hascii c (by rw [hs.1.1, Bool.true_or])
      · exact hascii c (hs.2 c hc)
  omega

theorem EndpointConfig.read_dump (h : pydantic.Strict) {endpoint : EndpointConfig}
    (hname : pydantic.Takes true endpoint.name) (hurl : pydantic.Takes false endpoint.baseUrl)
    (hkey : pydantic.Takes false endpoint.apiKey) :
    EndpointConfig.read pydantic (.obj endpoint.dump) = .ok endpoint :=
  EndpointConfig.read_ok.2 ⟨_, h.dumped rfl, hname, hurl, hkey⟩

theorem ModelConfig.read_dump (h : pydantic.Strict) {model : ModelConfig} (hid : pydantic.Takes true model.modelId)
    (hendpoints : ∀ endpoint ∈ model.endpoints, EndpointConfig.read pydantic (.obj endpoint.dump) = .ok endpoint)
    (hdefaults : ∀ p ∈ model.defaults, pydantic.Takes false p.1) :
    ModelConfig.read pydantic (.obj model.dump) = .ok model :=
  ModelConfig.read_ok.2 ⟨_, h.dumped rfl, hid, readList_dump h hendpoints, h.int _, h.payload.2 ⟨rfl, hdefaults⟩⟩

theorem PairConfig.read_dump (h : pydantic.Strict) {pair : PairConfig} (hcapable : pydantic.Takes true pair.capable)
    (hefficient : pydantic.Takes true pair.efficient) : PairConfig.read pydantic (.obj pair.dump) = .ok pair :=
  PairConfig.read_ok.2 ⟨_, h.dumped rfl, hcapable, hefficient⟩

theorem StageConfig.read_dump (h : pydantic.Strict) {stage : StageConfig} (hpicker : pydantic.Takes true stage.picker)
    (hnotes : pydantic.Takes false stage.escalationNote ∧ pydantic.Takes false stage.deescalationNote)
    (hprompts : pydantic.Takes false stage.capableSystemPrompt ∧ pydantic.Takes false stage.efficientSystemPrompt) :
    StageConfig.read pydantic (.obj stage.dump) = .ok stage :=
  StageConfig.read_ok.2 ⟨_, h.dumped rfl, hpicker, h.float _, h.int _, h.bool _, hnotes.1, hnotes.2, hprompts.1,
    hprompts.2⟩

theorem CompressionConfig.read_dump (h : pydantic.Strict) (compression : CompressionConfig) :
    CompressionConfig.read pydantic (.obj compression.dump) = .ok compression :=
  CompressionConfig.read_ok.2 ⟨_, h.dumped rfl, h.bool _, h.int _⟩

theorem ServerConfig.read_dump (h : pydantic.Strict) {server : ServerConfig}
    (hsecret : pydantic.Takes true server.apiKey) (hhost : pydantic.Takes false server.host) :
    ServerConfig.read pydantic (.obj server.dump) = .ok server :=
  ServerConfig.read_ok.2 ⟨_, h.dumped rfl, hsecret, hhost, h.int _, h.int _⟩

/-- **A document that is written out reads back.** -/
theorem Config.read_dump (h : pydantic.Strict) {config : Config}
    (hserver : ServerConfig.read pydantic (.obj config.server.dump) = .ok config.server)
    (hmodels : ∀ m ∈ config.models, pydantic.Takes true m.1 ∧ ModelConfig.read pydantic (.obj m.2.dump) = .ok m.2)
    (hpairs : ∀ p ∈ config.pairs, pydantic.Takes true p.1 ∧ PairConfig.read pydantic (.obj p.2.dump) = .ok p.2)
    (hstage : StageConfig.read pydantic (.obj config.stage.dump) = .ok config.stage)
    (hheaders : ∀ header ∈ config.forwardHeaders, pydantic.Takes false header) :
    Config.read pydantic (.obj config.dump) = .ok config :=
  Config.read_ok.2 ⟨_, h.dumped rfl, hserver, readDict_dump h hmodels, readDict_dump h hpairs, hstage,
    CompressionConfig.read_dump h _, h.finite _, h.finite _, h.finite _, readList_dump h hheaders⟩

end

/-! ### Writing out nothing that refers -/

section

variable {α : Type} {dump : α → Json}

theorem not_refers_list {items : List Json} (h : ∀ item ∈ items, ∀ name, ¬ Refers item name)
    (name : Json) : ¬ Refers (.list items) name := by
  rw [refers_list]
  rintro ⟨item, hitem, hname⟩
  exact h item hitem name hname

theorem not_refers_obj {fields : List (Str × Json)} (href : reference? (.obj fields) = none)
    (h : ∀ p ∈ fields, ∀ name, ¬ Refers p.2 name) (name : Json) : ¬ Refers (.obj fields) name := by
  rw [refers_obj href]
  rintro ⟨p, hp, hname⟩
  exact h p hp name hname

theorem not_refers_dumpList (h : ∀ x name, ¬ Refers (dump x) name) (xs : List α) (name : Json) :
    ¬ Refers (dumpList dump xs) name := by
  refine not_refers_list (fun item hitem => ?_) name
  obtain ⟨x, _, rfl⟩ := List.mem_map.1 hitem
  exact h x

/-- A dictionary looks like a reference only if it has one item, and that is labelled `env`. -/
theorem not_refers_dumpDict {d : Dict Str α} (hd : ∀ x, d ≠ [(lit "env", x)])
    (h : ∀ p ∈ d, ∀ name, ¬ Refers (dump p.2) name) (name : Json) : ¬ Refers (dumpDict dump d) name := by
  refine not_refers_obj (reference?_eq_none.2 fun hkeys => ?_) (fun p hp => ?_) name
  · obtain ⟨p, hp, hkey⟩ := List.map_eq_singleton_iff.1 hkeys
    obtain ⟨⟨label, x⟩, rfl, rfl⟩ := List.map_eq_singleton_iff.1 hp
    obtain rfl : label = lit "env" := hkey
    exact hd x rfl
  · obtain ⟨q, hq, rfl⟩ := List.mem_map.1 hp
    exact h q hq

end

theorem not_refers_str (s : Str) (name : Json) : ¬ Refers (.str s) name :=
  not_refers_leaf (by rintro _ ⟨⟩) (by rintro _ ⟨⟩) name

theorem not_refers_int (n : ℤ) (name : Json) : ¬ Refers (.int n) name :=
  not_refers_leaf (by rintro _ ⟨⟩) (by rintro _ ⟨⟩) name

theorem not_refers_float (x : Flt) (name : Json) : ¬ Refers (.float x) name :=
  not_refers_leaf (by rintro _ ⟨⟩) (by rintro _ ⟨⟩) name

theorem not_refers_bool (b : Bool) (name : Json) : ¬ Refers (.bool b) name :=
  not_refers_leaf (by rintro _ ⟨⟩) (by rintro _ ⟨⟩) name

/-- **An unambiguous document refers to nothing.** -/
theorem Config.dump_free {config : Config} (hmodels : ∀ m, config.models ≠ [(lit "env", m)])
    (hpairs : ∀ p, config.pairs ≠ [(lit "env", p)])
    (hdefaults : ∀ m ∈ config.models, ∀ name, ¬ Refers (.obj m.2.defaults) name) (name : Json) :
    ¬ Refers (.obj config.dump) name := by
  have hendpoint : ∀ (e : EndpointConfig) name, ¬ Refers (.obj e.dump) name := fun e =>
    not_refers_obj rfl (by simp [EndpointConfig.dump, not_refers_str])
  have hmodel : ∀ m ∈ config.models, ∀ name, ¬ Refers (.obj m.2.dump) name := fun m hm =>
    not_refers_obj rfl (by
      simp [ModelConfig.dump, not_refers_str, not_refers_int, not_refers_dumpList hendpoint, hdefaults m hm])
  have hpair : ∀ p ∈ config.pairs, ∀ name, ¬ Refers (.obj p.2.dump) name := fun p _ =>
    not_refers_obj rfl (by simp [PairConfig.dump, not_refers_str])
  have hserver : ∀ name, ¬ Refers (.obj config.server.dump) name :=
    not_refers_obj rfl (by simp [ServerConfig.dump, not_refers_str, not_refers_int])
  have hstage : ∀ name, ¬ Refers (.obj config.stage.dump) name :=
    not_refers_obj rfl (by
      simp [StageConfig.dump, not_refers_str, not_refers_int, not_refers_float, not_refers_bool])
  have hcompression : ∀ name, ¬ Refers (.obj config.compression.dump) name :=
    not_refers_obj rfl (by simp [CompressionConfig.dump, not_refers_int, not_refers_bool])
  have hmodelDict : ∀ name, ¬ Refers (dumpDict (fun model => .obj model.dump) config.models) name :=
    not_refers_dumpDict hmodels hmodel
  have hpairDict : ∀ name, ¬ Refers (dumpDict (fun pair => .obj pair.dump) config.pairs) name :=
    not_refers_dumpDict hpairs hpair
  refine not_refers_obj rfl ?_ name
  simp [Config.dump, hserver, hstage, hcompression, not_refers_float, hmodelDict, hpairDict,
    not_refers_dumpList not_refers_str]

/-- A dictionary of Python is written out as one. -/
theorem proper_dumpDict {α : Type} {dump : α → Json} {d : Dict Str α} (hd : (d.map Prod.fst).Nodup)
    (h : ∀ p ∈ d, (dump p.2).Proper) : (dumpDict dump d).Proper := by
  refine Json.proper_obj.2 ⟨?_, List.forall_mem_map.2 h⟩
  rwa [List.map_map]

theorem proper_dumpList {α : Type} {dump : α → Json} (h : ∀ x, (dump x).Proper) (xs : List α) :
    (dumpList dump xs).Proper := Json.proper_list.2 (List.forall_mem_map.2 fun x _ => h x)

/-- The keys of a class are distinct. -/
theorem proper_dump {fields : Payload} (keys : List Str) (hkeys : fields.map Prod.fst = keys) (hnodup : keys.Nodup)
    (h : ∀ p ∈ fields, p.2.Proper) : (Json.obj fields).Proper := Json.proper_obj.2 ⟨hkeys ▸ hnodup, h⟩

theorem Config.dump_proper {config : Config} (hmodels : (config.models.map Prod.fst).Nodup)
    (hpairs : (config.pairs.map Prod.fst).Nodup) (hdefaults : ∀ m ∈ config.models, (Json.obj m.2.defaults).Proper) :
    (Json.obj config.dump).Proper := by
  have hstr : ∀ s : Str, (Json.str s).Proper := fun _ => rfl
  have hint : ∀ n : ℤ, (Json.int n).Proper := fun _ => rfl
  have hfloat : ∀ x : Flt, (Json.float x).Proper := fun _ => rfl
  have hbool : ∀ b : Bool, (Json.bool b).Proper := fun _ => rfl
  have hendpoint : ∀ e : EndpointConfig, (Json.obj e.dump).Proper := fun e =>
    proper_dump EndpointConfig.keys rfl (by decide) (by simp [EndpointConfig.dump, hstr])
  have hmodel : ∀ m ∈ config.models, (Json.obj m.2.dump).Proper := fun m hm =>
    proper_dump ModelConfig.keys rfl (by decide) (by
      simp [ModelConfig.dump, hstr, hint, proper_dumpList hendpoint, hdefaults m hm])
  have hpair : ∀ p ∈ config.pairs, (Json.obj p.2.dump).Proper := fun p _ =>
    proper_dump PairConfig.keys rfl (by decide) (by simp [PairConfig.dump, hstr])
  have hserver : (Json.obj config.server.dump).Proper :=
    proper_dump ServerConfig.keys rfl (by decide) (by simp [ServerConfig.dump, hstr, hint])
  have hstage : (Json.obj config.stage.dump).Proper :=
    proper_dump StageConfig.keys rfl (by decide) (by simp [StageConfig.dump, hstr, hint, hfloat, hbool])
  have hcompression : (Json.obj config.compression.dump).Proper :=
    proper_dump CompressionConfig.keys rfl (by decide) (by simp [CompressionConfig.dump, hint, hbool])
  have hmodelDict : (dumpDict (fun model => .obj model.dump) config.models).Proper := proper_dumpDict hmodels hmodel
  have hpairDict : (dumpDict (fun pair => .obj pair.dump) config.pairs).Proper := proper_dumpDict hpairs hpair
  refine proper_dump Config.keys rfl (by decide) ?_
  simp [Config.dump, hserver, hstage, hcompression, hfloat, hmodelDict, hpairDict, proper_dumpList hstr]

/-! ### From settings to a document -/

/-- The replica that would be configured so. -/
def EndpointConfig.of (endpoint : Endpoint) : EndpointConfig where
  name := endpoint.name
  baseUrl := endpoint.baseUrl
  apiKey := endpoint.apiKey

def ModelConfig.of (model : Model) : ModelConfig where
  modelId := model.modelId
  endpoints := model.endpoints.map EndpointConfig.of
  contextWindow := model.contextWindow
  defaults := model.defaults

def PairConfig.of (pair : Pair) : PairConfig where
  capable := pair.capable
  efficient := pair.efficient

def StageConfig.of (stage : StagePolicy) : StageConfig where
  picker := stage.picker
  confidenceThreshold := stage.confidenceThreshold
  recentWindow := stage.recentWindow
  onlyOnWrongSignalEscalation := stage.onlyOnWrongSignalEscalation
  escalationNote := stage.escalationNote
  deescalationNote := stage.deescalationNote
  capableSystemPrompt := stage.capableSystemPrompt
  efficientSystemPrompt := stage.efficientSystemPrompt

/-- The document that says the settings, with these names of headers to forward. -/
def Config.of (settings : Settings) (headers : List Str) : Config where
  server := {
    apiKey := settings.apiKey
    host := settings.host
    port := settings.port
    maxRequestBytes := settings.maxRequestBytes }
  models := settings.models.map fun m => (m.1, .of m.2)
  pairs := settings.pairs.map fun p => (p.1, .of p.2)
  stage := .of settings.stage
  compression := { enabled := settings.compression, workers := settings.compressionWorkers }
  cooldownSeconds := settings.cooldownSeconds
  connectTimeout := settings.connectTimeout
  readTimeout := settings.readTimeout
  forwardHeaders := headers

theorem ModelConfig.of_model {label : Str} {model : Model} (h : model.name = label) :
    (ModelConfig.of model).model label = model := by
  have hendpoints : (model.endpoints.map EndpointConfig.of).map EndpointConfig.endpoint = model.endpoints := by
    rw [List.map_map]
    exact List.map_id _
  rw [ModelConfig.model, ModelConfig.of, hendpoints, ← h]

theorem PairConfig.of_pair {label : Str} {pair : Pair} (h : pair.name = label) :
    (PairConfig.of pair).pair label = pair := by
  rw [PairConfig.pair, PairConfig.of, ← h]

/-- A dictionary whose values are made again. -/
theorem map_of {α β : Type} {f : β → α} {g : Str → α → β} {d : Dict Str β} (h : ∀ p ∈ d, g p.1 (f p.2) = p.2) :
    (d.map fun p => (p.1, f p.2)).map (fun p => (p.1, g p.1 p.2)) = d := by
  rw [List.map_map]
  refine (List.map_congr_left fun p hp => ?_).trans (List.map_id d)
  exact Prod.ext rfl (h p hp)

/-- It says them. -/
theorem Config.of_settings {lib : Lib} {settings : Settings} {headers : List Str}
    (hmodels : ∀ m ∈ settings.models, m.2.name = m.1) (hpairs : ∀ p ∈ settings.pairs, p.2.name = p.1)
    (hheaders : headers.map lib.lower = settings.forwardHeaders) :
    ((Config.of settings headers).lowered lib).settings = settings := by
  rw [Config.settings, Config.lowered, Config.of]
  dsimp only
  rw [map_of (g := ModelConfig.model) fun m hm => ModelConfig.of_model (hmodels m hm),
    map_of (g := PairConfig.pair) fun p hp => PairConfig.of_pair (hpairs p hp), hheaders]
  rfl

/-- Names that are lower-cased from some. -/
theorem exists_headers {lib : Lib} {P : Str → Prop} {names : List Str}
    (h : ∀ name ∈ names, ∃ header, lib.lower header = name ∧ P header) :
    ∃ headers : List Str, headers.map lib.lower = names ∧ ∀ header ∈ headers, P header := by
  induction names with
  | nil => exact ⟨[], rfl, by simp⟩
  | cons name names ih =>
    obtain ⟨header, rfl, hheader⟩ := h name List.mem_cons_self
    obtain ⟨headers, rfl, hheaders⟩ := ih fun name hname => h name (List.mem_cons_of_mem _ hname)
    exact ⟨header :: headers, rfl, List.forall_mem_cons.2 ⟨hheader, hheaders⟩⟩

/-- A document without references is loaded as it is read and validated. -/
theorem load_dump {lib : Lib} {pydantic : Pydantic} {urlsplit : Str → Except String SplitUrl} {config : Config}
    (hfree : ∀ name, ¬ Refers (.obj config.dump) name)
    (hread : Config.read pydantic (.obj config.dump) = .ok config)
    (haccepted : Accepted lib urlsplit (config.lowered lib).settings) (environ : Str → Variable) :
    load lib pydantic urlsplit environ (.obj config.dump) = .ok (config.lowered lib).settings :=
  load_ok.2 ⟨_, config, resolve_of_not_refers environ hfree, hread, loadConfig_ok.2 ⟨rfl, haccepted⟩⟩

/-- **What can be said can be loaded.** -/
theorem Configurable.loads {lib : Lib} {pydantic : Pydantic} (hstrict : pydantic.Strict)
    {urlsplit : Str → Except String SplitUrl} {settings : Settings}
    (h : Configurable lib pydantic urlsplit settings) : ∃ doc, (Distinct settings → doc.Proper) ∧
      ∀ environ, load lib pydantic urlsplit environ doc = .ok settings := by
  obtain ⟨haccepted, htaken, hunambiguous⟩ := h
  obtain ⟨headers, hheaders, htakes⟩ := exists_headers htaken.headers
  have hsettings : ((Config.of settings headers).lowered lib).settings = settings :=
    Config.of_settings (fun m hm => (haccepted.models m hm).name) (fun p hp => (haccepted.pairs p hp).name) hheaders
  -- every class reads back
  have hmodel : ∀ m ∈ settings.models, pydantic.Takes true m.1 ∧
      ModelConfig.read pydantic (.obj (ModelConfig.of m.2).dump) = .ok (.of m.2) := by
    intro m hm
    refine ⟨hstrict.label (haccepted.models m hm).label,
      ModelConfig.read_dump hstrict (htaken.modelIds m hm) ?_ (htaken.defaults m hm)⟩
    refine List.forall_mem_map.2 fun endpoint hendpoint => ?_
    obtain ⟨hurl, hkey⟩ := htaken.endpoints m hm endpoint hendpoint
    exact EndpointConfig.read_dump hstrict
      (hstrict.label ((haccepted.models m hm).endpoints endpoint hendpoint).label) hurl hkey
  have hpair : ∀ p ∈ settings.pairs, pydantic.Takes true p.1 ∧
      PairConfig.read pydantic (.obj (PairConfig.of p.2).dump) = .ok (.of p.2) := by
    intro p hp
    obtain ⟨hcapable, hefficient⟩ := (haccepted.pairs p hp).tiers
    exact ⟨hstrict.label (haccepted.pairs p hp).label,
      PairConfig.read_dump hstrict (hstrict.label hcapable) (hstrict.label hefficient)⟩
  have hpicker : pydantic.Takes true settings.stage.picker := by
    have hascii : ∀ picker ∈ [lit "efficient_first", lit "capable_first"], ∀ c ∈ picker, c.isValidChar := by decide
    exact hstrict.text _ _ (hascii _ haccepted.stage.picker)
  have hread : Config.read pydantic (.obj (Config.of settings headers).dump) = .ok (Config.of settings headers) :=
    Config.read_dump hstrict (ServerConfig.read_dump hstrict htaken.secret htaken.host)
      (List.forall_mem_map.2 hmodel) (List.forall_mem_map.2 hpair)
      (StageConfig.read_dump hstrict hpicker htaken.notes htaken.prompts) htakes
  -- and none of them refers to a variable
  have hfree : ∀ name, ¬ Refers (.obj (Config.of settings headers).dump) name :=
    Config.dump_free (map_ne_singleton (g := fun _ => ModelConfig.of) hunambiguous.models)
      (map_ne_singleton (g := fun _ => PairConfig.of) hunambiguous.pairs) (List.forall_mem_map.2 hunambiguous.defaults)
  refine ⟨.obj (Config.of settings headers).dump, fun hdistinct => ?_, fun environ => ?_⟩
  · refine Config.dump_proper ?_ ?_ (List.forall_mem_map.2 hdistinct.defaults)
    · rw [Config.of, List.map_map]
      exact hdistinct.models
    · rw [Config.of, List.map_map]
      exact hdistinct.pairs
  · exact (load_dump hfree hread (hsettings.symm ▸ haccepted) environ).trans (congrArg _ hsettings)

/-- **Loading is exact.**  What a document loads as in one environment can be said without
references, and then loads in every environment; and all that is accepted, taken and
unambiguous can be said. -/
theorem load_exact (lib : Lib) (pydantic : Pydantic) (hstrict : pydantic.Strict)
    (urlsplit : Str → Except String SplitUrl) (settings : Settings) :
    (∀ environ doc, load lib pydantic urlsplit environ doc = .ok settings →
      Configurable lib pydantic urlsplit settings ∧
        ∃ doc', resolve environ doc = .ok doc' ∧
          ∀ environ', load lib pydantic urlsplit environ' doc' = .ok settings) ∧
    (Configurable lib pydantic urlsplit settings → ∃ doc, (Distinct settings → doc.Proper) ∧
      ∀ environ, load lib pydantic urlsplit environ doc = .ok settings) := by
  refine ⟨fun environ doc h => ?_, Configurable.loads hstrict⟩
  obtain ⟨doc', config, hresolved, hread, hconfig⟩ := load_ok.1 h
  refine ⟨?_, doc', hresolved, fun environ' =>
    load_ok.2 ⟨doc', config, resolve_resolved environ' hresolved, hread, hconfig⟩⟩
  obtain ⟨rfl, haccepted⟩ := loadConfig_ok.1 hconfig
  obtain ⟨htaken, hunambiguous⟩ := read_configurable lib hstrict (not_refers_resolved hresolved) hread
  exact ⟨haccepted, htaken, hunambiguous⟩

/-- The small document can be said without its variable. -/
theorem load_exact_keyed : Configurable Demo.lib verbatim localhost Demo.config.settings ∧
    ∃ doc, ∀ environ, load Demo.lib verbatim localhost environ doc = .ok Demo.config.settings := by
  obtain ⟨hconfigurable, doc, -, hloads⟩ :=
    (load_exact Demo.lib verbatim verbatim_strict localhost Demo.config.settings).1 _ _ Demo.document_loads
  exact ⟨hconfigurable, doc, hloads⟩

end Configuration
end SwitchyardGateway
