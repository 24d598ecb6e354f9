import NexusMainframe.Lib.FiniteMap
import NexusMainframe.Lib.JsonText

/-!
# Configuration maps from JSON files

A configuration map keeps a value under each key: a string, an integer of 32 bits, a
floating-point number, a boolean, or a JSON value. One is made of the members of the value in
a file, where an integer is cut to its 32 bits, and nothing is kept of a member that is `null`,
an array or an object.

The file is read by `operator>>`, which takes the first value of a text; `extract` is this
function.
-/

namespace NexusMainframe

/-- What a key of the configuration can have: the alternatives of the variant. -/
inductive ConfigValue where
  | string (s : Bytes)
  | int (n : Int32)
  | double (bits : UInt64)
  | bool (b : Bool)
  | json (j : Json)

/-- The value that is represented. -/
def ConfigValue.toJson : ConfigValue → Json
  | string s => .string s
  | int n => .integer n.toInt
  | double bits => .float bits
  | bool b => .boolean b
  | json j => j

/-- A configuration map. -/
abbrev ConfigMap :=
  Finmap fun _ : Bytes => ConfigValue

namespace JsonConfigSource

/-- Why `load` throws. -/
inductive Error where
  | cannotOpen (message : Bytes)
  | parse
deriving DecidableEq

/-- What a loop over `items()` of a value goes through: the elements of an array have their
positions for keys, and a value that is no container is under the empty key. -/
def items : Json → List (Bytes × Json)
  | .null => []
  | .array elements => elements.zipIdx.map fun e => (Bytes.decimal e.2, e.1)
  | .object members => members
  | j => [([], j)]

/-- What is kept of a value, if anything is. -/
def convert : Json → Option ConfigValue
  | .string s => some (.string s)
  | .integer n => some (.int (Int32.ofInt n))
  | .float bits => some (.double bits)
  | .boolean b => some (.bool b)
  | .null | .array _ | .object _ => none

/-- `parseJson`: every item is converted on its own, and dropped where this fails. -/
def parseJson (j : Json) : ConfigMap :=
  (items j).foldl (fun result item =>
    match convert item.2 with
    | some value => result.insert item.1 value
    | none => result) ∅

/-- `load` on a path where a file has a text or cannot be opened. -/
def load (extract : Bytes → Option Json) (filepath : Bytes) :
    Option Bytes → Except Error ConfigMap
  | none => .error (.cannotOpen (Bytes.ofAscii "Cannot open file: " ++ filepath))
  | some text =>
      match extract text with
      | none => .error .parse
      | some j => .ok (parseJson j)

/-- A map has just the keys of some members, each with a value that represents the member's. -/
def Lossless (members : List (Bytes × Json)) (config : ConfigMap) : Prop :=
  ∀ key, (config.lookup key).map ConfigValue.toJson = members.lookup key

/-- A string, a boolean, a floating-point number, or an integer of 32 bits. -/
def Fits : Json → Prop
  | .string _ | .boolean _ | .float _ => True
  | .integer n => -0x80000000 ≤ n ∧ n < 0x80000000
  | .null | .array _ | .object _ => False

/-- What is kept of a value represents it just if the value fits. -/
theorem map_toJson_convert_iff {j : Json} :
  (convert j).map ConfigValue.toJson = some j ↔ Fits j
  := by
  cases j with
  | integer n =>
      have htoInt : (Int32.ofInt n).toInt = n ↔ -0x80000000 ≤ n ∧ n < 0x80000000 := by
        constructor
        · intro h
          rw [← h]
          exact ⟨(Int32.ofInt n).le_toInt, (Int32.ofInt n).toInt_lt⟩
        · rintro ⟨hle, hlt⟩
          apply Int32.toInt_ofInt_of_le hle hlt
      simpa [convert, ConfigValue.toJson, Fits] using htoInt
  | _ => simp [convert, ConfigValue.toJson, Fits]

theorem lookup_parseJson
    {members : List (Bytes × Json)} (hnodup : (members.map Prod.fst).Nodup) (key : Bytes) :
  (parseJson (.object members)).lookup key = (members.lookup key).bind convert
  := by
  have hput : ∀ (config : ConfigMap) (item : Bytes × Json) (k : Bytes),
      (match convert item.2 with
        | some value => config.insert item.1 value
        | none => config).lookup k
      = if k = item.1 then (convert item.2).or (config.lookup k) else config.lookup k := by
    intro config item k
    cases convert item.2 with
    | none => simp
    | some value =>
        rw [FiniteMap.lookup_insert]
        rfl
  rw [parseJson, items, FiniteMap.lookup_foldl hput hnodup, Finmap.lookup_empty, Option.or_none]

theorem lossless_parseJson_iff
    {members : List (Bytes × Json)} (hnodup : (members.map Prod.fst).Nodup) :
  Lossless members (parseJson (.object members)) ↔ ∀ m ∈ members, Fits m.2
  := by
  constructor
  · intro h m hm
    have hlookup := FiniteMap.lookup_of_mem hnodup hm
    have hkey := h m.1
    rw [lookup_parseJson hnodup, hlookup, Option.bind_some] at hkey
    apply map_toJson_convert_iff.mp hkey
  · intro h key
    rw [lookup_parseJson hnodup]
    cases hlookup : members.lookup key with
    | none => rfl
    | some j =>
        have hmem : (key, j) ∈ members := Json.mem_of_member hlookup
        apply map_toJson_convert_iff.mpr (h (key, j) hmem)

/-- The members of the object in a file are kept without loss just if each of them is a string,
a boolean, a floating-point number or an integer of 32 bits. -/
theorem load_lossless_iff
    {extract : Bytes → Option Json} (hextract : ∀ text j, extract text = some j → j.Proper)
    (filepath : Bytes) {text : Bytes} {members : List (Bytes × Json)}
    (h : extract text = some (.object members)) :
  (∃ config, load extract filepath (some text) = .ok config ∧ Lossless members config)
    ↔ ∀ m ∈ members, Fits m.2
  := by
  have hload : load extract filepath (some text) = .ok (parseJson (.object members)) := by
    rw [load, h]
  rw [← lossless_parseJson_iff (hextract text _ h).nodup_keys]
  constructor
  · rintro ⟨config, hconfig, hlossless⟩
    rw [hload] at hconfig
    cases hconfig
    apply hlossless
  · intro hlossless
    use parseJson (.object members), hload, hlossless

/-- A member that is an integer. -/
def timeout (seconds : Int) : List (Bytes × Json) :=
  [(Bytes.ofAscii "timeout", .integer seconds)]

theorem extract_proper (text : Bytes) (j : Json) (h : (JsonText.codec 2).parse text = some j) :
  j.Proper
  := ((JsonText.codec_spec 2).proper_of_parse text j h).1

/-- A string, a boolean and an integer. -/
def settings : List (Bytes × Json) :=
  [(Bytes.ofAscii "host", .string (Bytes.ofAscii "mybroker")),
    (Bytes.ofAscii "retain", .boolean true), (Bytes.ofAscii "timeout", .integer 30)]

theorem load_lossless_iff_settings :
  ∃ config, load (JsonText.codec 2).parse (Bytes.ofAscii "config.json")
      (some (JsonText.print 2 0 (.object settings))) = .ok config
    ∧ Lossless settings config
  := by
  have hparse : (JsonText.codec 2).parse (JsonText.print 2 0 (.object settings))
      = some (.object settings) :=
    JsonText.codec_parse_print (by decide +kernel) (by decide +kernel) 2
  apply (load_lossless_iff extract_proper (Bytes.ofAscii "config.json") hparse).mpr
  simp [settings, Fits]

/-- The integer 5000000000 is cut to 705032704. -/
theorem not_load_lossless :
  ¬ ∀ (extract : Bytes → Option Json), (∀ text j, extract text = some j → j.Proper) →
      ∀ (filepath text : Bytes) (members : List (Bytes × Json)),
        extract text = some (.object members) →
          ∃ config, load extract filepath (some text) = .ok config ∧ Lossless members config
  := by
  intro h
  have hparse : (JsonText.codec 2).parse (JsonText.print 2 0 (.object (timeout 5000000000)))
      = some (.object (timeout 5000000000)) :=
    JsonText.codec_parse_print (by decide +kernel) (by decide +kernel) 2
  obtain ⟨config, hload, hlossless⟩ := h _ extract_proper (Bytes.ofAscii "config.json") _ _ hparse
  rw [load, hparse] at hload
  cases hload
  have htimeout := hlossless (Bytes.ofAscii "timeout")
  rw [lookup_parseJson (by decide)] at htimeout
  cases htimeout

end JsonConfigSource

end NexusMainframe
