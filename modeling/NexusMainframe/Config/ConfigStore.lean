import NexusMainframe.Config.ConfigProvider

/-!
# The configuration provider as a store

The provider keeps structs under keys, each converted to JSON by the adapter for its type, and
saves its map to files and loads it from them. Over runs of these calls it is a typed store
with snapshots: what is found under a key is what was put there last, or was there when the
file was saved that has been loaded since. It throws where a type has no adapter, a struct of
another type is asked for, or a file cannot be opened or was not written whole.
-/

namespace NexusMainframe

/-- A module with the path that it was loaded from. -/
structure ModuleEntry where
  name : Bytes
  path : Bytes
deriving DecidableEq

/-! ### The adapters -/

namespace LoadedModuleAdapter

/-- `serialize` of a module. -/
def serialize (entry : ModuleEntry) : Json :=
  .object [(Bytes.ofAscii "name", .string entry.name), (Bytes.ofAscii "path", .string entry.path)]

/-- `deserialize` of a module; a member that is absent is read as empty. -/
def deserialize (j : Json) : Option ModuleEntry := do
  let name ← j.valueAs Json.asString (Bytes.ofAscii "name") []
  let path ← j.valueAs Json.asString (Bytes.ofAscii "path") []
  some ⟨name, path⟩

theorem deserialize_serialize (entry : ModuleEntry) :
  deserialize (serialize entry) = some entry
  := rfl

end LoadedModuleAdapter

namespace LoadedModuleListAdapter

/-- `serialize` of a list, element by element. -/
def serialize (entries : List ModuleEntry) : Json :=
  .array (entries.map LoadedModuleAdapter.serialize)

/-- An element, whose members have to be there. -/
def deserializeItem (item : Json) : Option ModuleEntry := do
  let name ← (item.member (Bytes.ofAscii "name")).bind Json.asString
  let path ← (item.member (Bytes.ofAscii "path")).bind Json.asString
  some ⟨name, path⟩

/-- `deserialize` of a list, which goes through `items()` of any value. -/
def deserialize (j : Json) : Option (List ModuleEntry) :=
  (ConfigProvider.iterate j).mapM fun item => deserializeItem item.2

theorem deserialize_serialize (entries : List ModuleEntry) :
  deserialize (serialize entries) = some entries
  := by
  have hloop : deserialize (serialize entries)
      = ((entries.map LoadedModuleAdapter.serialize).map fun j =>
          ((none : Option Bytes), j)).mapM fun item => deserializeItem item.2 := rfl
  rw [hloop]
  clear hloop
  induction entries with
  | nil => rfl
  | cons entry entries ih =>
      rw [List.map_cons, List.map_cons, List.mapM_cons, ih]
      rfl

end LoadedModuleListAdapter

namespace ConfigProvider

/-- The types with an adapter. -/
inductive Kind where
  | entry
  | entries
deriving DecidableEq

/-- A value of one of these types. -/
inductive Struct where
  | entry (e : ModuleEntry)
  | entries (es : List ModuleEntry)
deriving DecidableEq

namespace Struct

/-- The type of a struct. -/
def kind : Struct → Kind
  | entry _ => .entry
  | entries _ => .entries

/-- The adapter of the type makes the value. -/
def serialize : Struct → Json
  | entry e => LoadedModuleAdapter.serialize e
  | entries es => LoadedModuleListAdapter.serialize es

/-- The adapter of a type reads a value; where it throws there is no struct. -/
def deserialize (j : Json) : Kind → Option Struct
  | .entry => (LoadedModuleAdapter.deserialize j).map .entry
  | .entries => (LoadedModuleListAdapter.deserialize j).map .entries

/-- A struct is read back as its own type, and as no other. -/
theorem deserialize_serialize (s : Struct) (kind : Kind) :
  deserialize s.serialize kind = if kind = s.kind then some s else none
  := by
  cases s with
  | entry e =>
      cases kind with
      | entry =>
          rw [deserialize, serialize, LoadedModuleAdapter.deserialize_serialize]
          rfl
      | entries => rfl
  | entries es =>
      cases kind with
      | entry => rfl
      | entries =>
          have hlist := LoadedModuleListAdapter.deserialize_serialize es
          rw [deserialize, serialize, hlist]
          rfl

theorem proper_serialize (s : Struct) :
  s.serialize.Proper
  := by
  have hkeys : Json.KeyLt (Bytes.ofAscii "name") (Bytes.ofAscii "path") := by decide
  have hentry : ∀ e, (LoadedModuleAdapter.serialize e).Proper := by
    intro e
    simp [LoadedModuleAdapter.serialize, hkeys]
  cases s with
  | entry e => exact hentry e
  | entries es =>
      rw [serialize, LoadedModuleListAdapter.serialize, Json.proper_array]
      intro j hj
      obtain ⟨e, -, rfl⟩ := List.mem_map.mp hj
      exact hentry e

end Struct

/-! ### The provider with its files -/

/-- Why a call throws. -/
inductive Thrown where
  | noAdapter
  | notJson
  | deserialize
  | load (error : Error)
  | cannotSave (message : Bytes)
  | dump
deriving DecidableEq

/-- What a call comes to. -/
inductive Outcome where
  | done
  | found (s : Option Struct)
  | threw (thrown : Thrown)
deriving DecidableEq

/-- The provider, the types that adapters are registered for, and the texts of the files. -/
structure State where
  provider : ConfigProvider
  adapters : Kind → Bool
  files : Bytes → Option Bytes

/-- A provider with a source, and no files. -/
def State.init : State where
  provider := ⟨∅⟩
  adapters := fun _ => false
  files := fun _ => none

/-- The calls; a file can be opened, or not. -/
inductive Call where
  | registerAdapter (kind : Kind)
  | setStruct (key : Bytes) (s : Struct)
  | getStruct (kind : Kind) (key : Bytes)
  | save (filepath : Bytes) (opens : Bool)
  | load (filepath : Bytes) (opens : Bool)

/-- `setStruct` throws where no adapter is registered for the type. -/
def setStruct (s : State) (key : Bytes) (value : Struct) : State × Outcome :=
  if s.adapters value.kind then
    ({ s with provider := ⟨s.provider.config.insert key (.json value.serialize)⟩ }, .done)
  else (s, .threw .noAdapter)

/-- `getStruct`: it looks the key up first, then the adapter, then at the kind of the value. -/
def getStruct (s : State) (kind : Kind) (key : Bytes) : Outcome :=
  match s.provider.config.lookup key with
  | none => .found none
  | some value =>
      if s.adapters kind then
        match value with
        | .json j =>
            match Struct.deserialize j kind with
            | some value => .found (some value)
            | none => .threw .deserialize
        | .string _ | .int _ | .double _ | .bool _ => .threw .notJson
      else .threw .noAdapter

/-- The value that `save` makes of the entries of the map, in the order of its table. -/
def toJson : List (Bytes × ConfigValue) → Json
  | [] => .null
  | e :: entries =>
      .object ((e :: entries).foldl (fun members e => Json.setMember e.1 e.2.toJson members) [])

section

variable (c : Json.Codec) (order : ConfigMap → List (Bytes × ConfigValue))

/-- The file is empty once it is open, and the text is put into it in one piece. -/
def save (s : State) (filepath : Bytes) (opens : Bool) : State × Outcome :=
  if opens then
    match c.dump (toJson (order s.provider.config)) with
    | some text => ({ s with files := Function.update s.files filepath (some text) }, .done)
    | none => ({ s with files := Function.update s.files filepath (some []) }, .threw .dump)
  else
    (s, .threw (.cannotSave
      (Bytes.ofAscii "Failed to open file for saving config: " ++ filepath)))

/-- A call of the provider, with files that it finds as it left them. -/
def step (s : State) : Call → State × Outcome
  | .registerAdapter kind =>
      ({ s with adapters := Function.update s.adapters kind true }, .done)
  | .setStruct key value => setStruct s key value
  | .getStruct kind key => (s, getStruct s kind key)
  | .save filepath opens => save c order s filepath opens
  | .load filepath opens =>
      let (provider, error) :=
        load c.parse s.provider filepath (if opens then s.files filepath else none)
      ({ s with provider },
        match error with
        | none => .done
        | some error => .threw (.load error))

/-- The outcomes of calls, one after the other. -/
def outcomes (s : State) : List Call → List Outcome
  | [] => []
  | a :: calls => (step c order s a).2 :: outcomes (step c order s a).1 calls

end

/-! ### The typed store -/

/-- A store of structs, with snapshots of it under the paths of files; a file that could not
be written whole is broken. -/
structure Store where
  config : Bytes → Option Struct
  adapters : Kind → Bool
  files : Bytes → Option (Option (Bytes → Option Struct))

namespace Store

/-- Nothing is stored, and there are no adapters and no files. -/
def init : Store where
  config := fun _ => none
  adapters := fun _ => false
  files := fun _ => none

/-- Everything in the store is a text. -/
def IsText (t : Store) : Prop :=
  ∀ key s, t.config key = some s → Utf8.Valid key ∧ s.serialize.Valid

/-- A struct of a registered type is kept under the key. -/
def setStruct (t : Store) (key : Bytes) (value : Struct) : Store × Outcome :=
  if t.adapters value.kind then
    ({ t with config := Function.update t.config key (some value) }, .done)
  else (t, .threw .noAdapter)

/-- A struct is found under its own type only. -/
def getStruct (t : Store) (kind : Kind) (key : Bytes) : Outcome :=
  match t.config key with
  | none => .found none
  | some value =>
      if t.adapters kind then
        if kind = value.kind then .found (some value) else .threw .deserialize
      else .threw .noAdapter

open Classical in
/-- A snapshot is kept whole, unless something in it is no text; then the file is broken. -/
noncomputable def save (t : Store) (filepath : Bytes) (opens : Bool) : Store × Outcome :=
  if opens then
    if t.IsText then
      ({ t with files := Function.update t.files filepath (some (some t.config)) }, .done)
    else ({ t with files := Function.update t.files filepath (some none) }, .threw .dump)
  else
    (t, .threw (.cannotSave
      (Bytes.ofAscii "Failed to open file for saving config: " ++ filepath)))

/-- The snapshot in the file replaces the structs. -/
def load (t : Store) (filepath : Bytes) (opens : Bool) : Store × Outcome :=
  match if opens then t.files filepath else none with
  | none =>
      (t, .threw (.load (.cannotOpen
        (Bytes.ofAscii "Failed to open file for loading config: " ++ filepath))))
  | some none => (t, .threw (.load .parse))
  | some (some config) => ({ t with config }, .done)

/-- A call as the store is meant to take it. -/
noncomputable def step (t : Store) : Call → Store × Outcome
  | .registerAdapter kind =>
      ({ t with adapters := Function.update t.adapters kind true }, .done)
  | .setStruct key value => t.setStruct key value
  | .getStruct kind key => (t, t.getStruct kind key)
  | .save filepath opens => t.save filepath opens
  | .load filepath opens => t.load filepath opens

/-- The outcomes of calls, one after the other. -/
noncomputable def outcomes (t : Store) : List Call → List Outcome
  | [] => []
  | a :: calls => (t.step a).2 :: outcomes (t.step a).1 calls

end Store

/-! ### The map in a file -/

/-- The map has just the structs of a store. -/
def Keeps (config : ConfigMap) (structs : Bytes → Option Struct) : Prop :=
  ∀ key, config.lookup key = (structs key).map fun s => .json s.serialize

/-- The entries of a map, in some order. -/
def Lists (entries : List (Bytes × ConfigValue)) (config : ConfigMap) : Prop :=
  (entries : Multiset (Bytes × ConfigValue)) = config.entries.map fun e => (e.1, e.2)

variable {entries : List (Bytes × ConfigValue)} {config : ConfigMap}

theorem Lists.mem_iff (h : Lists entries config) {key : Bytes} {v : ConfigValue} :
  (key, v) ∈ entries ↔ config.lookup key = some v
  := by
  rw [← Multiset.mem_coe, h, Multiset.mem_map]
  constructor
  · rintro ⟨⟨key', v'⟩, hmem, heq⟩
    cases heq
    exact Finmap.mem_lookup_iff.mpr hmem
  · intro hlookup
    exact ⟨⟨key, v⟩, Finmap.mem_lookup_iff.mp hlookup, rfl⟩

theorem Lists.nodup (h : Lists entries config) :
  (entries.map Prod.fst).Nodup
  := by
  have hkeys : ((entries.map Prod.fst : List Bytes) : Multiset Bytes) = config.entries.keys := by
    rw [← Multiset.map_coe, h, Multiset.map_map]
    rfl
  rw [← Multiset.coe_nodup, hkeys]
  exact config.nodupKeys.nodup_keys

/-- The members that `save` sets are those of the map. -/
theorem Lists.lookup_setMembers (h : Lists entries config) (key : Bytes) :
  (entries.foldl (fun members e => Json.setMember e.1 e.2.toJson members) []).lookup key
    = (config.lookup key).map ConfigValue.toJson
  := by
  have hset : ∀ (members : List (Bytes × Json)) (e : Bytes × ConfigValue) (k : Bytes),
      (Json.setMember e.1 e.2.toJson members).lookup k
      = if k = e.1 then (some e.2.toJson).or (members.lookup k) else members.lookup k :=
    fun members e k => Json.lookup_setMember e.1 e.2.toJson members k
  have hloop := FiniteMap.get_foldl (fun (members : List (Bytes × Json)) k => members.lookup k)
    (g := fun v => some v.toJson) hset h.nodup [] key
  have hlookup : entries.lookup key = config.lookup key := by
    apply Option.ext
    intro v
    rw [← h.mem_iff]
    constructor
    · intro hv
      obtain ⟨front, back, rfl, -⟩ := List.lookup_eq_some_iff.mp hv
      simp
    · exact fun hmem => FiniteMap.lookup_of_mem h.nodup hmem
  rw [hloop, hlookup, List.lookup_nil, Option.or_none, Option.map_eq_bind]
  rfl

/-- The members with the structs of a store. -/
theorem proper_members
    {structs : Bytes → Option Struct} {members : List (Bytes × Json)}
    (hsorted : (members.map Prod.fst).Pairwise Json.KeyLt)
    (hlookup : ∀ key, members.lookup key = (structs key).map Struct.serialize) :
  (Json.object members).Proper
    ∧ ((Json.object members).Valid ↔ ∀ key s, structs key = some s →
      Utf8.Valid key ∧ s.serialize.Valid)
  := by
  have hnodup : (members.map Prod.fst).Nodup := hsorted.imp Json.KeyLt.ne
  have hmem : ∀ m ∈ members, ∃ s, structs m.1 = some s ∧ m.2 = s.serialize := by
    intro m hm
    have hm := FiniteMap.lookup_of_mem hnodup hm
    rw [hlookup, Option.map_eq_some_iff] at hm
    obtain ⟨s, hs, hserialize⟩ := hm
    exact ⟨s, hs, hserialize.symm⟩
  constructor
  · rw [Json.proper_object]
    use hsorted
    intro m hm
    obtain ⟨s, -, hserialize⟩ := hmem m hm
    rw [hserialize]
    exact s.proper_serialize
  · rw [Json.valid_object]
    constructor
    · intro hvalid key s hs
      have hkey := hlookup key
      rw [hs, Option.map_some] at hkey
      exact hvalid (key, s.serialize) (Json.mem_of_member hkey)
    · intro hvalid m hm
      obtain ⟨s, hs, hserialize⟩ := hmem m hm
      rw [hserialize]
      exact hvalid m.1 s hs

/-- What `save` makes of a map has a key for everything, is proper, has the structs of the map
for members, and can be serialised just if all of it is text. -/
theorem toJson_spec
    {structs : Bytes → Option Struct} (h : Lists entries config) (hkeeps : Keeps config structs) :
  HasKeys (toJson entries) ∧ (toJson entries).Proper
    ∧ (∀ key, (toJson entries).members.lookup key = (structs key).map Struct.serialize)
    ∧ ((toJson entries).Valid ↔ ∀ key s, structs key = some s →
      Utf8.Valid key ∧ s.serialize.Valid)
  := by
  have hlookup : ∀ key, (entries.foldl (fun members e =>
      Json.setMember e.1 e.2.toJson members) []).lookup key
        = (structs key).map Struct.serialize := by
    intro key
    rw [h.lookup_setMembers, hkeeps, Option.map_map]
    rfl
  have hsorted : ∀ (entries : List (Bytes × ConfigValue)) (members : List (Bytes × Json)),
      (members.map Prod.fst).Pairwise Json.KeyLt →
        ((entries.foldl (fun members e => Json.setMember e.1 e.2.toJson members)
          members).map Prod.fst).Pairwise Json.KeyLt := by
    intro entries
    induction entries with
    | nil => exact fun _ hmembers => hmembers
    | cons e entries ih =>
        intro members hmembers
        exact ih _ (Json.sorted_setMember hmembers e.1 e.2.toJson)
  cases entries with
  | nil =>
      have hnone : ∀ key, structs key = none := by
        intro key
        have hkey := hlookup key
        exact Option.map_eq_none_iff.mp hkey.symm
      refine ⟨.inr (.inl rfl), trivial, ?_, ?_⟩
      · intro key
        rw [hnone]
        rfl
      · refine iff_of_true trivial ?_
        intro key s hs
        cases (hnone key).symm.trans hs
  | cons e entries =>
      obtain ⟨hproper, hvalid⟩ := proper_members (hsorted (e :: entries) [] List.Pairwise.nil)
        hlookup
      exact ⟨.inl ⟨_, rfl⟩, hproper, hlookup, hvalid⟩

/-! ### The provider as a typed store -/

/-- The text of a file is what a snapshot was saved as, or is broken. -/
def SnapshotOf (parse : Bytes → Option Json) :
    Option Bytes → Option (Option (Bytes → Option Struct)) → Prop
  | none, none => True
  | some text, some none => parse text = none
  | some text, some (some structs) =>
      ∃ j, parse text = some j ∧ HasKeys j ∧ j.Proper
        ∧ ∀ key, j.members.lookup key = (structs key).map Struct.serialize
  | _, _ => False

/-- The provider and its files stand for a store. -/
structure Represents (parse : Bytes → Option Json) (s : State) (t : Store) : Prop where
  config : Keeps s.provider.config t.config
  adapters : s.adapters = t.adapters
  files : ∀ filepath, SnapshotOf parse (s.files filepath) (t.files filepath)

variable {c : Json.Codec} {order : ConfigMap → List (Bytes × ConfigValue)} {s : State} {t : Store}

theorem Represents.init (parse : Bytes → Option Json) :
  Represents parse State.init Store.init
  where
  config _ := rfl
  adapters := rfl
  files _ := trivial

theorem Represents.getStruct
    (h : Represents c.parse s t) (kind : Kind) (key : Bytes) :
  getStruct s kind key = t.getStruct kind key
  := by
  rw [ConfigProvider.getStruct, Store.getStruct, h.config, h.adapters]
  cases t.config key with
  | none => rfl
  | some value =>
      simp only [Option.map_some, Struct.deserialize_serialize]
      by_cases hkind : kind = value.kind
      · simp [hkind]
      · simp [hkind]

theorem Represents.setStruct
    (h : Represents c.parse s t) (key : Bytes) (value : Struct) :
  (setStruct s key value).2 = (t.setStruct key value).2
    ∧ Represents c.parse (ConfigProvider.setStruct s key value).1 (t.setStruct key value).1
  := by
  unfold ConfigProvider.setStruct Store.setStruct
  rw [h.adapters]
  split
  next =>
    use rfl
    refine ⟨?_, rfl, h.files⟩
    intro key'
    dsimp only
    rw [FiniteMap.lookup_insert, Function.update_apply]
    split
    next => rfl
    next => exact h.config key'
  next => exact ⟨rfl, h⟩

/-- A file that is written stands for what was put into it, and the others for what they did. -/
theorem SnapshotOf.update
    {parse : Bytes → Option Json} {files : Bytes → Option Bytes}
    {snapshots : Bytes → Option (Option (Bytes → Option Struct))}
    (h : ∀ filepath, SnapshotOf parse (files filepath) (snapshots filepath)) {filepath : Bytes}
    {text : Bytes} {snapshot : Option (Bytes → Option Struct)}
    (htext : SnapshotOf parse (some text) (some snapshot)) (filepath' : Bytes) :
  SnapshotOf parse (Function.update files filepath (some text) filepath')
    (Function.update snapshots filepath (some snapshot) filepath')
  := by
  rw [Function.update_apply, Function.update_apply]
  split
  next => exact htext
  next => exact h filepath'

theorem Represents.save
    (h : Represents c.parse s t) (hc : c.Spec) (horder : ∀ config, Lists (order config) config)
    (filepath : Bytes) (opens : Bool) :
  (save c order s filepath opens).2 = (t.save filepath opens).2
    ∧ Represents c.parse (ConfigProvider.save c order s filepath opens).1
      (t.save filepath opens).1
  := by
  obtain ⟨hkeys, hproper, hlookup, hvalid⟩ := toJson_spec (horder s.provider.config) h.config
  unfold ConfigProvider.save Store.save
  split
  next =>
    split
    next text htext =>
      have htexts : t.IsText := hvalid.mp (hc.valid_of_dump htext)
      rw [if_pos htexts]
      use rfl
      refine ⟨h.config, h.adapters, SnapshotOf.update h.files ?_⟩
      exact ⟨_, hc.parse_dump _ _ hproper htext, hkeys, hproper, hlookup⟩
    next hnone =>
      have htexts : ¬ t.IsText := mt hvalid.mpr ((hc.dump_eq_none _).mp hnone)
      rw [if_neg htexts]
      use rfl
      exact ⟨h.config, h.adapters, SnapshotOf.update h.files hc.parse_nil⟩
  next => exact ⟨rfl, h⟩

theorem Represents.load
    (h : Represents c.parse s t) (filepath : Bytes) (opens : Bool) :
  (step c order s (.load filepath opens)).2 = (t.load filepath opens).2
    ∧ Represents c.parse (step c order s (.load filepath opens)).1 (t.load filepath opens).1
  := by
  have hfile : SnapshotOf c.parse (if opens then s.files filepath else none)
      (if opens then t.files filepath else none) := by
    split
    next => exact h.files filepath
    next => trivial
  simp only [step, Store.load]
  generalize (if opens then s.files filepath else none) = file at hfile ⊢
  generalize (if opens then t.files filepath else none) = snapshot at hfile ⊢
  cases file with
  | none =>
      cases snapshot with
      | none => exact ⟨rfl, h⟩
      | some snapshot => cases snapshot <;> cases hfile
  | some text =>
      cases snapshot with
      | none => cases hfile
      | some snapshot =>
          cases snapshot with
          | none =>
              have hparse : c.parse text = none := hfile
              rw [ConfigProvider.load, hparse]
              exact ⟨rfl, h⟩
          | some structs =>
              obtain ⟨j, hj, hkeys, hproper, hlookup⟩ := hfile
              obtain ⟨herror, hholds⟩ := copy_of_hasKeys hkeys hproper
              rw [ConfigProvider.load, hj]
              dsimp only
              rw [herror]
              use rfl
              refine ⟨?_, h.adapters, h.files⟩
              intro key
              rw [hholds, hlookup, Option.map_map]
              rfl

theorem Represents.step
    (h : Represents c.parse s t) (hc : c.Spec) (horder : ∀ config, Lists (order config) config)
    (a : Call) :
  (step c order s a).2 = (t.step a).2 ∧ Represents c.parse (step c order s a).1 (t.step a).1
  := by
  cases a with
  | registerAdapter kind =>
      use rfl
      refine ⟨h.config, ?_, h.files⟩
      simp [ConfigProvider.step, Store.step, h.adapters]
  | setStruct key value => exact h.setStruct key value
  | getStruct kind key => exact ⟨h.getStruct kind key, h⟩
  | save filepath opens => exact h.save hc horder filepath opens
  | load filepath opens => exact h.load filepath opens

/-- Whatever is called, in any order, each call of the provider returns or throws what the
typed store with snapshots does. -/
theorem outcomes_eq
    (hc : c.Spec) (horder : ∀ config, Lists (order config) config) (calls : List Call) :
  outcomes c order State.init calls = Store.init.outcomes calls
  := by
  have hfrom : ∀ {s : State} {t : Store}, Represents c.parse s t →
      outcomes c order s calls = t.outcomes calls := by
    induction calls with
    | nil => exact fun _ => rfl
    | cons a calls ih =>
        intro s t h
        obtain ⟨houtcome, hnext⟩ := h.step hc horder a
        rw [outcomes, Store.outcomes, houtcome, ih hnext]
  exact hfrom (Represents.init c.parse)

/-- The entries of a map in some order that it has. -/
noncomputable def someOrder (config : ConfigMap) : List (Bytes × ConfigValue) :=
  (config.entries.map fun e => (e.1, e.2)).toList

theorem lists_someOrder (config : ConfigMap) :
  Lists (someOrder config) config
  := Multiset.coe_toList _

/-- A module is put in, the file is saved, another is put in, and the file is loaded. -/
def twoModules : List Call :=
  [.registerAdapter .entry,
    .setStruct (Bytes.ofAscii "module") (.entry ⟨Bytes.ofAscii "cast", Bytes.ofAscii "cast.so"⟩),
    .save (Bytes.ofAscii "config.json") true,
    .setStruct (Bytes.ofAscii "module") (.entry ⟨Bytes.ofAscii "hue", Bytes.ofAscii "hue.so"⟩),
    .load (Bytes.ofAscii "config.json") true,
    .getStruct .entry (Bytes.ofAscii "module"),
    .getStruct .entries (Bytes.ofAscii "module")]

theorem outcomes_eq_twoModules :
  outcomes (JsonText.codec 4) someOrder State.init twoModules = Store.init.outcomes twoModules
  := outcomes_eq (JsonText.codec_spec 4) lists_someOrder twoModules

end ConfigProvider

end NexusMainframe
