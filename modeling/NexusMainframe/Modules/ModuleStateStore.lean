import NexusMainframe.Lib.JsonCodec
import Mathlib.Data.List.Nodup

/-!
# The module state store

The store keeps the names of the enabled modules, in a list and in a file with an object
whose member `enabled` is an array of them. A file that cannot be read this way is taken for
an empty one.

To save, the file is opened, which empties it, and then the text is written; when the
serialiser throws the file stays empty.
-/

namespace NexusMainframe

namespace ModuleStateStore

/-- The names that the loop of `load` collects, unless something throws. -/
def readNames (j : Json) : Option (List Bytes) := do
  let enabled ← j.valueAs some (Bytes.ofAscii "enabled") (.array [])
  enabled.items.mapM Json.asString

/-- The names after `load`, where a file is absent or has a text. -/
def load (parse : Bytes → Option Json) (names : List Bytes) : Option Bytes → List Bytes
  | none => names
  | some text => ((parse text).bind readNames).getD []

/-- The value that `save` writes. -/
def toJson (names : List Bytes) : Json :=
  .object [(Bytes.ofAscii "enabled", .array (names.map .string))]

/-- `contains`. -/
def contains (names : List Bytes) (name : Bytes) : Bool :=
  name ∈ names

/-- `add`, which adds no name twice. -/
def add (names : List Bytes) (name : Bytes) : List Bytes :=
  if contains names name then names else names ++ [name]

/-- `remove`. -/
def remove (names : List Bytes) (name : Bytes) : List Bytes :=
  names.filter fun n => n ≠ name

theorem mem_add {names : List Bytes} {name n : Bytes} :
  n ∈ add names name ↔ n ∈ names ∨ n = name
  := by
  unfold add
  split
  next hmem =>
    have hmem : name ∈ names := by simpa [contains] using hmem
    constructor
    · apply Or.inl
    · rintro (hn | rfl)
      · apply hn
      · apply hmem
  next => simp

theorem mem_remove {names : List Bytes} {name n : Bytes} :
  n ∈ remove names name ↔ n ∈ names ∧ n ≠ name
  := by
  simp [remove]

/-! ### Loading what was saved -/

theorem readNames_toJson (names : List Bytes) :
  readNames (toJson names) = some names
  := Json.mapM_asString_map names

theorem isContainer_toJson (names : List Bytes) :
  (toJson names).IsContainer
  := by
  right
  exact ⟨_, rfl⟩

theorem proper_toJson (names : List Bytes) :
  (toJson names).Proper
  := by
  simp [toJson]

theorem valid_toJson {names : List Bytes} :
  (toJson names).Valid ↔ ∀ n ∈ names, Utf8.Valid n
  := by
  have hkey : Utf8.Valid (Bytes.ofAscii "enabled") :=
    Utf8.valid_of_ascii (Bytes.ofAscii_lt (by decide))
  simp [toJson, hkey]

/-- The names that were saved are loaded. -/
theorem load_dump
    {c : Json.Codec} (h : c.Spec) {names : List Bytes} {text : Bytes}
    (htext : c.dump (toJson names) = some text) (names' : List Bytes) :
  load c.parse names' (some text) = names
  := by
  rw [load, h.parse_dump _ _ (proper_toJson names) htext, Option.bind_some, readNames_toJson,
    Option.getD_some]

/-- What is loaded of a file is UTF-8. -/
theorem valid_load {c : Json.Codec} (h : c.Spec) (file : Option Bytes) :
  ∀ name ∈ load c.parse [] file, Utf8.Valid name
  := by
  cases file with
  | none => simp [load]
  | some text =>
      intro name hname
      rw [load] at hname
      cases hnames : (c.parse text).bind readNames with
      | none =>
          rw [hnames] at hname
          cases hname
      | some names =>
          rw [hnames, Option.getD_some] at hname
          obtain ⟨j, hj, hread⟩ := Option.bind_eq_some_iff.mp hnames
          obtain ⟨enabled, henabled, hmap⟩ := Option.bind_eq_some_iff.mp hread
          have hvalid := (h.proper_of_parse text j hj).2
          have hempty : (Json.array []).Valid := by simp
          have hitems := (hvalid.valueAs_some hempty henabled).items
          rw [Json.mapM_asString_eq_some hmap] at hitems
          apply hitems (.string name) (List.mem_map_of_mem hname)

end ModuleStateStore

end NexusMainframe
