import NexusMainframe.Lib.JsonCodec

/-!
# The configuration

The configuration of the servers, its JSON value, and the way it is read from a file: a
field that the file has is taken over, and the first one that cannot be converted ends the
reading, with the fields before it taken over.

A field has its place in the JSON value, a group and a key. Its value is a JSON value too:
a string, or an integer for a port.
-/

namespace NexusMainframe

/-- The broker, and the name of the program there. -/
structure MqttConfig where
  host : Bytes
  port : Int32
  clientId : Bytes
deriving DecidableEq

/-- The port of the API. -/
structure HttpConfig where
  port : Int32
deriving DecidableEq

/-- The port of the WebSocket server. -/
structure WsConfig where
  port : Int32
deriving DecidableEq

/-- The configuration of the program, in the groups of its file. -/
structure NexusConfig where
  mqtt : MqttConfig
  http : HttpConfig
  ws : WsConfig
deriving DecidableEq

namespace NexusConfig

/-- The configuration before anything is read. -/
def default : NexusConfig where
  mqtt := ⟨Bytes.ofAscii "192.168.2.161", 1883, Bytes.ofAscii "nexus-core"⟩
  http := ⟨8080⟩
  ws := ⟨8082⟩

/-- The members of an object are kept in the order of their keys. -/
def toJson (cfg : NexusConfig) : Json :=
  .object
    [(Bytes.ofAscii "http", .object [(Bytes.ofAscii "port", .integer cfg.http.port.toInt)]),
      (Bytes.ofAscii "mqtt", .object
        [(Bytes.ofAscii "client_id", .string cfg.mqtt.clientId),
          (Bytes.ofAscii "host", .string cfg.mqtt.host),
          (Bytes.ofAscii "port", .integer cfg.mqtt.port.toInt)]),
      (Bytes.ofAscii "ws", .object [(Bytes.ofAscii "port", .integer cfg.ws.port.toInt)])]

/-! ### Fields -/

/-- The fields, in the order in which they are read and changed. -/
inductive Field where
  | mqttHost
  | mqttPort
  | mqttClientId
  | httpPort
  | wsPort
deriving DecidableEq

namespace Field

/-- The fields in their order. -/
def all : List Field :=
  [mqttHost, mqttPort, mqttClientId, httpPort, wsPort]

theorem mem_all (f : Field) : f ∈ all := by
  cases f <;> decide

theorem nodup_all : all.Nodup := by
  decide

/-- The object that a field stands in. -/
def group : Field → Bytes
  | mqttHost | mqttPort | mqttClientId => Bytes.ofAscii "mqtt"
  | httpPort => Bytes.ofAscii "http"
  | wsPort => Bytes.ofAscii "ws"

/-- The key of a field in its object. -/
def key : Field → Bytes
  | mqttHost => Bytes.ofAscii "host"
  | mqttPort | httpPort | wsPort => Bytes.ofAscii "port"
  | mqttClientId => Bytes.ofAscii "client_id"

/-- The value of a field. -/
def value (cfg : NexusConfig) : Field → Json
  | mqttHost => .string cfg.mqtt.host
  | mqttPort => .integer cfg.mqtt.port.toInt
  | mqttClientId => .string cfg.mqtt.clientId
  | httpPort => .integer cfg.http.port.toInt
  | wsPort => .integer cfg.ws.port.toInt

/-- A field set to a JSON value, unless the value cannot be converted. -/
def set (truncate : UInt64 → Int32) (cfg : NexusConfig) (v : Json) : Field → Option NexusConfig
  | mqttHost => v.asString.map fun s => { cfg with mqtt := { cfg.mqtt with host := s } }
  | mqttPort => (v.asInt32 truncate).map fun n => { cfg with mqtt := { cfg.mqtt with port := n } }
  | mqttClientId =>
      v.asString.map fun s => { cfg with mqtt := { cfg.mqtt with clientId := s } }
  | httpPort => (v.asInt32 truncate).map fun n => { cfg with http := { port := n } }
  | wsPort => (v.asInt32 truncate).map fun n => { cfg with ws := { port := n } }

/-- The value that a field gets from a JSON value, unless that cannot be converted. -/
def convert (truncate : UInt64 → Int32) (v : Json) : Field → Option Json
  | mqttHost | mqttClientId => v.asString.map .string
  | mqttPort | httpPort | wsPort => (v.asInt32 truncate).map fun n => .integer n.toInt

theorem set_eq_none {truncate : UInt64 → Int32} {cfg : NexusConfig} {v : Json} {f : Field} :
  f.set truncate cfg v = none ↔ f.convert truncate v = none
  := by
  cases f <;> simp [set, convert]

theorem value_set
    {truncate : UInt64 → Int32} {cfg cfg' : NexusConfig} {v : Json} {f : Field}
    (h : f.set truncate cfg v = some cfg') :
  f.convert truncate v = some (f.value cfg') ∧ ∀ g ≠ f, g.value cfg' = g.value cfg
  := by
  cases f
  all_goals
    simp only [set, Option.map_eq_some_iff] at h
    obtain ⟨x, hx, rfl⟩ := h
    constructor
    · simp [convert, value, hx]
    · intro g hg
      cases g <;> first | rfl | cases hg rfl

/-- The value of a field is converted to itself. -/
theorem convert_value (truncate : UInt64 → Int32) (cfg : NexusConfig) (f : Field) :
  f.convert truncate (f.value cfg) = some (f.value cfg)
  := by
  cases f <;> simp [convert, value, Json.asString, Json.asInt32_toInt]

end Field

/-- A configuration is given by its fields. -/
theorem ext_value {cfg cfg' : NexusConfig} (h : ∀ f : Field, f.value cfg = f.value cfg') :
  cfg = cfg'
  := by
  obtain ⟨⟨host, port, clientId⟩, ⟨httpPort⟩, ⟨wsPort⟩⟩ := cfg
  obtain ⟨⟨host', port', clientId'⟩, ⟨httpPort'⟩, ⟨wsPort'⟩⟩ := cfg'
  have hhost := h .mqttHost
  have hport := h .mqttPort
  have hclient := h .mqttClientId
  have hhttp := h .httpPort
  have hws := h .wsPort
  simp only [Field.value, Json.string.injEq, Json.integer.injEq, Int32.toInt_inj]
    at hhost hport hclient hhttp hws
  subst hhost hport hclient hhttp hws
  rfl

/-! ### Fields one after another -/

/-- A step for each field in turn; the first that fails ends it, and what was reached before
remains. -/
def eachField (step : NexusConfig → Field → Option NexusConfig) :
    List Field → NexusConfig → Except NexusConfig NexusConfig
  | [], cfg => .ok cfg
  | f :: fields, cfg =>
      match step cfg f with
      | none => .error cfg
      | some cfg => eachField step fields cfg

/-- A field set to the value that it is named with, if it is named. -/
def assign (truncate : UInt64 → Int32) (named : Field → Option Json) (cfg : NexusConfig)
    (f : Field) : Option NexusConfig :=
  match named f with
  | none => some cfg
  | some v => f.set truncate cfg v

section Assign

variable {truncate : UInt64 → Int32} {named : Field → Option Json} {fields : List Field}
  {cfg cfg' : NexusConfig}

theorem value_assign
    {f : Field} (h : assign truncate named cfg f = some cfg') :
  (∀ v, named f = some v → f.convert truncate v = some (f.value cfg'))
    ∧ ∀ g, (g = f → named f = none) → g.value cfg' = g.value cfg
  := by
  unfold assign at h
  cases hnamed : named f with
  | none =>
      rw [hnamed] at h
      cases h
      simp
  | some v =>
      rw [hnamed] at h
      obtain ⟨hconvert, hother⟩ := Field.value_set h
      constructor
      · rintro v' ⟨⟩
        apply hconvert
      · intro g hg
        apply hother g
        intro heq
        cases hg heq

theorem eachField_append
    {step : NexusConfig → Field → Option NexusConfig} {before rest : List Field}
    (h : eachField step before cfg = .ok cfg') :
  eachField step (before ++ rest) cfg = eachField step rest cfg'
  := by
  induction before generalizing cfg with
  | nil =>
      cases h
      rfl
  | cons f before ih =>
      rw [List.cons_append, eachField]
      rw [eachField] at h
      cases hstep : step cfg f with
      | none =>
          rw [hstep] at h
          cases h
      | some cfg₁ =>
          rw [hstep] at h
          apply ih h

/-- Where the steps end early, one of them has failed. -/
theorem eachField_eq_error
    {step : NexusConfig → Field → Option NexusConfig}
    (h : eachField step fields cfg = .error cfg') :
  ∃ before f rest, fields = before ++ f :: rest ∧ eachField step before cfg = .ok cfg'
    ∧ step cfg' f = none
  := by
  induction fields generalizing cfg with
  | nil => cases h
  | cons f fields ih =>
      rw [eachField] at h
      cases hstep : step cfg f with
      | none =>
          rw [hstep] at h
          cases h
          use [], f, fields, rfl, rfl, hstep
      | some cfg₁ =>
          rw [hstep] at h
          obtain ⟨before, g, rest, rfl, hbefore, hnone⟩ := ih h
          use f :: before, g, rest, rfl
          rw [eachField, hstep]
          use hbefore, hnone

/-- Each field that is named gets the value it is named with, and the others keep theirs. -/
theorem value_eachField
    (hnodup : fields.Nodup) (h : eachField (assign truncate named) fields cfg = .ok cfg') :
  (∀ f ∈ fields, ∀ v, named f = some v → f.convert truncate v = some (f.value cfg'))
    ∧ ∀ f, (f ∈ fields → named f = none) → f.value cfg' = f.value cfg
  := by
  induction fields generalizing cfg with
  | nil =>
      cases h
      simp
  | cons f fields ih =>
      obtain ⟨hnotMem, hnodup⟩ := List.nodup_cons.mp hnodup
      rw [eachField] at h
      cases hassign : assign truncate named cfg f with
      | none =>
          rw [hassign] at h
          cases h
      | some cfg₁ =>
          rw [hassign] at h
          obtain ⟨hfirst, hother⟩ := value_assign hassign
          obtain ⟨hrest, hkept⟩ := ih hnodup h
          constructor
          · intro g hg v hv
            rcases List.mem_cons.mp hg with rfl | hg
            · rw [hkept g fun hmem => absurd hmem hnotMem]
              apply hfirst v hv
            · apply hrest g hg v hv
          · intro g hg
            rw [hkept g fun hmem => hg (List.mem_cons_of_mem f hmem)]
            apply hother g
            rintro rfl
            apply hg List.mem_cons_self

/-- When every value can be converted, all fields are set. -/
theorem exists_eachField
    (h : ∀ f ∈ fields, ∀ v, named f = some v → f.convert truncate v ≠ none)
    (cfg : NexusConfig) :
  ∃ cfg', eachField (assign truncate named) fields cfg = .ok cfg'
  := by
  induction fields generalizing cfg with
  | nil =>
      use cfg
      rfl
  | cons f fields ih =>
      have hassign : assign truncate named cfg f ≠ none := by
        unfold assign
        cases hnamed : named f with
        | none => simp
        | some v =>
            rw [Ne, Field.set_eq_none]
            apply h f List.mem_cons_self v hnamed
      obtain ⟨cfg₁, hcfg₁⟩ := Option.ne_none_iff_exists'.mp hassign
      rw [eachField, hcfg₁]
      apply ih fun g hg => h g (List.mem_cons_of_mem f hg)

end Assign

/-! ### Reading and saving -/

/-- A field read from a JSON value, unless the access throws. -/
def readField (truncate : UInt64 → Int32) (j : Json) (cfg : NexusConfig) (f : Field) :
    Option NexusConfig :=
  match j.member f.group with
  | none => some cfg
  | some (.object members) =>
      match members.lookup f.key with
      | none => some cfg
      | some v => f.set truncate cfg v
  | some _ => none

/-- The configuration that a JSON value has, as far as it can be read. -/
def ofJson (truncate : UInt64 → Int32) (j : Json) : NexusConfig :=
  match eachField (readField truncate j) Field.all default with
  | .ok cfg => cfg
  | .error cfg => cfg

/-- The file after `save`, and whether `save` has returned. The file is emptied before the
value is serialised. -/
def save (dump : Json → Option Bytes) (cfg : NexusConfig) : Bytes × Bool :=
  match dump cfg.toJson with
  | some text => (text, true)
  | none => ([], false)

/-- The configuration, and the file, after `loadOrCreate`. -/
def loadOrCreate (c : Json.Codec) (truncate : UInt64 → Int32) :
    Option Bytes → NexusConfig × Option Bytes
  | none => (default, some (save c.dump default).1)
  | some text =>
      match c.parse text with
      | none => (default, some text)
      | some j => (ofJson truncate j, some text)

theorem readField_toJson (truncate : UInt64 → Int32) (cfg : NexusConfig) :
  readField truncate cfg.toJson = assign truncate fun f => some (f.value cfg)
  := by
  funext cfg' f
  cases f <;> rfl

theorem ofJson_toJson (truncate : UInt64 → Int32) (cfg : NexusConfig) :
  ofJson truncate cfg.toJson = cfg
  := by
  have hconvert : ∀ f ∈ Field.all, ∀ v, some (f.value cfg) = some v →
      f.convert truncate v ≠ none := by
    rintro f - v ⟨⟩
    rw [Field.convert_value]
    simp
  obtain ⟨cfg', hcfg'⟩ := exists_eachField hconvert default
  rw [ofJson, readField_toJson, hcfg']
  apply ext_value
  intro f
  have hvalue := (value_eachField Field.nodup_all hcfg').1 f (Field.mem_all f) _ rfl
  rw [Field.convert_value] at hvalue
  apply (Option.some.inj hvalue).symm

theorem proper_toJson (cfg : NexusConfig) :
  cfg.toJson.Proper
  := by
  have hport : ∀ n : Int32, -0x8000000000000000 ≤ n.toInt ∧ n.toInt < 0x10000000000000000 := by
    intro n
    have hle := n.le_toInt
    have hlt := n.toInt_lt
    omega
  simp [toJson, hport]
  decide

theorem valid_toJson {cfg : NexusConfig} :
  cfg.toJson.Valid ↔ ∀ f : Field, (f.value cfg).Valid
  := by
  have hkeys : ∀ name ∈ ["http", "mqtt", "ws", "port", "host", "client_id"],
      Utf8.Valid (Bytes.ofAscii name) := by
    intro name hname
    apply Utf8.valid_of_ascii
    apply Bytes.ofAscii_lt
    revert name
    decide
  simp only [List.forall_mem_cons, List.not_mem_nil, false_imp_iff, implies_true,
    and_true] at hkeys
  obtain ⟨hhttp, hmqtt, hws, hport, hhost, hclient⟩ := hkeys
  simp only [toJson, Json.valid_object, Json.valid_string, Json.valid_integer,
    List.forall_mem_cons, List.not_mem_nil, false_imp_iff, implies_true, and_true, hhttp, hmqtt,
    hws, hport, hhost, hclient, true_and]
  constructor
  · rintro ⟨hclientId, hhost⟩ f
    cases f
    · apply hhost
    · trivial
    · apply hclientId
    · trivial
    · trivial
  · intro h
    constructor
    · apply h .mqttClientId
    · apply h .mqttHost

/-- The configuration that was saved is read. -/
theorem loadOrCreate_dump
    {c : Json.Codec} (hc : c.Spec) (truncate : UInt64 → Int32) {cfg : NexusConfig} {text : Bytes}
    (htext : c.dump cfg.toJson = some text) :
  (loadOrCreate c truncate (some text)).1 = cfg
  := by
  rw [loadOrCreate, hc.parse_dump _ _ (proper_toJson cfg) htext]
  apply ofJson_toJson truncate

/-! ### Configurations that can be saved -/

section

variable {truncate : UInt64 → Int32} {cfg cfg' : NexusConfig}

/-- A configuration stays valid when a field is set to a valid value. -/
theorem valid_set
    {v : Json} {f : Field} (h : cfg.toJson.Valid) (hv : v.Valid)
    (hset : f.set truncate cfg v = some cfg') :
  cfg'.toJson.Valid
  := by
  rw [valid_toJson] at h ⊢
  obtain ⟨hconvert, hother⟩ := Field.value_set hset
  intro g
  by_cases hg : g = f
  · subst hg
    cases g with
    | mqttHost | mqttClientId =>
        obtain ⟨s, hs, hvalue⟩ := Option.map_eq_some_iff.mp hconvert
        rw [← hvalue]
        cases v with
        | string s' =>
            obtain rfl := Option.some.inj hs
            exact hv
        | _ => cases hs
    | mqttPort | httpPort | wsPort => exact Json.valid_integer
  · rw [hother g hg]
    exact h g

/-- What every step keeps holds where the steps end, early or not. -/
theorem eachField_induction
    {P : NexusConfig → Prop} {step : NexusConfig → Field → Option NexusConfig}
    (hstep : ∀ cfg f cfg', P cfg → step cfg f = some cfg' → P cfg') (fields : List Field)
    (h : P cfg) :
  P (match eachField step fields cfg with | .ok cfg' => cfg' | .error cfg' => cfg')
  := by
  induction fields generalizing cfg with
  | nil => exact h
  | cons f fields ih =>
      rw [eachField]
      cases hf : step cfg f with
      | none => exact h
      | some cfg₁ => exact ih (hstep cfg f cfg₁ h hf)

theorem valid_default :
  default.toJson.Valid
  := by
  decide +kernel

/-- What is read of a valid value is valid. -/
theorem valid_ofJson {j : Json} (hj : j.Valid) :
  (ofJson truncate j).toJson.Valid
  := by
  apply eachField_induction (P := fun cfg => cfg.toJson.Valid) _ _ valid_default
  intro cfg f cfg' hcfg hread
  unfold readField at hread
  split at hread
  next =>
    cases hread
    exact hcfg
  next members hgroup =>
    split at hread
    next =>
      cases hread
      exact hcfg
    next v hkey =>
      have hmember : (Json.object members).member f.key = some v := hkey
      exact valid_set hcfg ((hj.member hgroup).member hmember) hread
  next => cases hread

theorem valid_loadOrCreate {c : Json.Codec} (hc : c.Spec) (file : Option Bytes) :
  (loadOrCreate c truncate file).1.toJson.Valid
  := by
  cases file with
  | none => exact valid_default
  | some text =>
      rw [loadOrCreate]
      cases htext : c.parse text with
      | none => exact valid_default
      | some j => exact valid_ofJson (hc.proper_of_parse text j htext).2

end

end NexusConfig

end NexusMainframe
