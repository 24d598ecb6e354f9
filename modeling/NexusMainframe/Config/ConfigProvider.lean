import NexusMainframe.Config.JsonConfigSource
import NexusMainframe.Lib.JsonPatch

/-!
# The configuration provider

The provider keeps a configuration map. To load one from a file it reads the value in the file,
empties its map, and puts the members of the value into it. The loop over a value asks its
iterator for a key each time, and the iterator of a value that is no object throws.
-/

namespace NexusMainframe

/-- The map of a `ConfigProvider`. -/
structure ConfigProvider where
  config : ConfigMap

namespace ConfigProvider

/-- Why `load` throws. -/
inductive Error where
  | cannotOpen (message : Bytes)
  | parse
  | invalidIterator
deriving DecidableEq

/-- What an iterator goes through from `begin` to `end`: values, each with its key unless
`key()` throws. -/
def iterate : Json → List (Option Bytes × Json)
  | .null => []
  | .array elements => elements.map fun j => (none, j)
  | .object members => members.map fun m => (some m.1, m.2)
  | j => [(none, j)]

/-- The loop of `load`, and whether it throws. -/
def copy : ConfigMap → List (Option Bytes × Json) → ConfigMap × Option Error
  | config, [] => (config, none)
  | config, (none, _) :: _ => (config, some .invalidIterator)
  | config, (some key, value) :: rest => copy (config.insert key (.json value)) rest

/-- `load` on a path where a file has a text or cannot be opened, and why it throws, if it
does. -/
def load (extract : Bytes → Option Json) (provider : ConfigProvider) (filepath : Bytes) :
    Option Bytes → ConfigProvider × Option Error
  | none =>
      (provider,
        some (.cannotOpen (Bytes.ofAscii "Failed to open file for loading config: " ++ filepath)))
  | some text =>
      match extract text with
      | none => (provider, some .parse)
      | some j =>
          let (config, error) := copy ∅ (iterate j)
          ({ provider with config }, error)

/-- A map has just the keys and the values of some members. -/
def Holds (members : List (Bytes × Json)) (provider : ConfigProvider) : Prop :=
  ∀ key, provider.config.lookup key = (members.lookup key).map .json

/-- The map is replaced by the members of the value in the file, or something is thrown and the
map is as it was. -/
def Replaces (extract : Bytes → Option Json) (provider : ConfigProvider) (filepath : Bytes)
    (file : Option Bytes) : Prop :=
  ((load extract provider filepath file).2 = none
      ∧ ∃ text j, file = some text ∧ extract text = some j
        ∧ Holds j.members (load extract provider filepath file).1)
    ∨ ((load extract provider filepath file).2 ≠ none
      ∧ (load extract provider filepath file).1 = provider)

/-- The iterator has a key for everything that it goes through. -/
def HasKeys (j : Json) : Prop :=
  (∃ members, j = .object members) ∨ j = .null ∨ j = .array []

/-! ### The loop -/

theorem copy_members (config : ConfigMap) (members : List (Bytes × Json)) :
  copy config (members.map fun m => (some m.1, m.2))
    = (members.foldl (fun config m => config.insert m.1 (.json m.2)) config, none)
  := by
  induction members generalizing config with
  | nil => rfl
  | cons m members ih =>
      rw [List.map_cons, copy]
      apply ih

/-- The members of an object are put into the map. -/
theorem lookup_copy_members
    {members : List (Bytes × Json)} (hnodup : (members.map Prod.fst).Nodup) (key : Bytes) :
  (copy ∅ (iterate (.object members))).1.lookup key = (members.lookup key).map .json
  := by
  have hput : ∀ (config : ConfigMap) (m : Bytes × Json) (k : Bytes),
      (config.insert m.1 (.json m.2)).lookup k
      = if k = m.1 then (some (ConfigValue.json m.2)).or (config.lookup k)
        else config.lookup k :=
    fun config m k => FiniteMap.lookup_insert config m.1 k (.json m.2)
  have hloop := FiniteMap.lookup_foldl (g := fun j => some (ConfigValue.json j)) hput hnodup ∅ key
  rw [iterate, copy_members, hloop, Finmap.lookup_empty, Option.or_none, Option.map_eq_bind]
  rfl

theorem copy_of_hasKeys {j : Json} (h : HasKeys j) (hproper : j.Proper) :
  (copy ∅ (iterate j)).2 = none ∧ Holds j.members ⟨(copy ∅ (iterate j)).1⟩
  := by
  rcases h with ⟨members, rfl⟩ | rfl | rfl
  · constructor
    · rw [iterate, copy_members]
    · intro key
      apply lookup_copy_members hproper.nodup_keys
  · exact ⟨rfl, fun _ => rfl⟩
  · exact ⟨rfl, fun _ => rfl⟩

theorem copy_of_not_hasKeys {j : Json} (h : ¬ HasKeys j) :
  copy ∅ (iterate j) = (∅, some .invalidIterator)
  := by
  cases j with
  | null =>
      exfalso
      apply h
      right
      left
      rfl
  | array elements =>
      cases elements with
      | nil =>
          exfalso
          apply h
          right
          right
          rfl
      | cons j elements => rfl
  | object members =>
      exfalso
      apply h
      left
      use members
  | boolean _ | integer _ | float _ | string _ => rfl

/-- Loading replaces the map or leaves it just if the value in the file is an object, `null` or
an empty array, where there is one, or the map is empty. -/
theorem load_replaces_iff
    {extract : Bytes → Option Json} (hextract : ∀ text j, extract text = some j → j.Proper)
    (provider : ConfigProvider) (filepath : Bytes) (file : Option Bytes) :
  Replaces extract provider filepath file
    ↔ provider.config = ∅ ∨ ∀ text j, file = some text → extract text = some j → HasKeys j
  := by
  cases file with
  | none => simp [Replaces, load]
  | some text =>
      cases hj : extract text with
      | none =>
          have hload : load extract provider filepath (some text) = (provider, some .parse) := by
            rw [load, hj]
          have hreplaces : Replaces extract provider filepath (some text) := by
            right
            simp [hload]
          refine iff_of_true hreplaces (Or.inr ?_)
          rintro text' j ⟨⟩ hj'
          rw [hj] at hj'
          cases hj'
      | some j =>
          have hload : load extract provider filepath (some text)
              = (⟨(copy ∅ (iterate j)).1⟩, (copy ∅ (iterate j)).2) := by
            rw [load, hj]
          by_cases hkeys : HasKeys j
          · obtain ⟨hnone, hholds⟩ := copy_of_hasKeys hkeys (hextract text j hj)
            have hreplaces : Replaces extract provider filepath (some text) := by
              left
              rw [hload]
              exact ⟨hnone, text, j, rfl, hj, hholds⟩
            refine iff_of_true hreplaces (Or.inr ?_)
            rintro text' j' ⟨⟩ hj'
            rw [hj] at hj'
            cases hj'
            apply hkeys
          · rw [copy_of_not_hasKeys hkeys] at hload
            have hsame : (⟨∅⟩ : ConfigProvider) = provider ↔ provider.config = ∅ := by
              cases provider
              simp [eq_comm]
            have hnot : ¬ ∀ text' j', some text = some text' → extract text' = some j' →
                HasKeys j' :=
              fun h => hkeys (h text j rfl hj)
            simp only [Replaces, hload, hsame, hnot]
            simp

/-- What the map holds is replaced. -/
theorem load_replaces_iff_settings :
  Replaces (JsonText.codec 2).parse ⟨Finmap.insert (Bytes.ofAscii "timeout") (.int 60) ∅⟩
    (Bytes.ofAscii "config.json") (some (JsonText.print 2 0 (.object JsonConfigSource.settings)))
  := by
  apply (load_replaces_iff JsonConfigSource.extract_proper _ (Bytes.ofAscii "config.json") _).mpr
  right
  rintro text j ⟨⟩ hj
  rw [JsonText.codec_parse_print (by decide +kernel) (by decide +kernel)] at hj
  cases hj
  left
  exact ⟨_, rfl⟩

/-- An array in the file empties the map. -/
theorem not_load_replaces :
  ¬ ∀ (extract : Bytes → Option Json), (∀ text j, extract text = some j → j.Proper) →
      ∀ (provider : ConfigProvider) (filepath : Bytes) (file : Option Bytes),
        Replaces extract provider filepath file
  := by
  intro h
  let config : ConfigMap := Finmap.insert (Bytes.ofAscii "timeout") (.int 30) ∅
  have hparse : (JsonText.codec 2).parse (JsonText.print 2 0 (.array [.integer 30]))
      = some (.array [.integer 30]) :=
    JsonText.codec_parse_print (by decide +kernel) (by decide +kernel) 2
  have hload : load (JsonText.codec 2).parse ⟨config⟩ (Bytes.ofAscii "config.json")
      (some (JsonText.print 2 0 (.array [.integer 30]))) = (⟨∅⟩, some .invalidIterator) := by
    rw [load, hparse]
    rfl
  rcases h _ JsonConfigSource.extract_proper ⟨config⟩ (Bytes.ofAscii "config.json")
    (some (JsonText.print 2 0 (.array [.integer 30]))) with ⟨hnone, -⟩ | ⟨-, hsame⟩
  · rw [hload] at hnone
    cases hnone
  · rw [hload] at hsame
    have hlookup := congrArg (fun p => p.config.lookup (Bytes.ofAscii "timeout")) hsame
    dsimp only [config] at hlookup
    rw [Finmap.lookup_insert, Finmap.lookup_empty] at hlookup
    cases hlookup

end ConfigProvider

end NexusMainframe
