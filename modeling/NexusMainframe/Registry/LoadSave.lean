import NexusMainframe.Devices.DeviceRegistry
import NexusMainframe.Lib.JsonText
import NexusMainframe.Modules.ModuleStateStore
import NexusMainframe.Rooms.RoomRegistry
import Mathlib.Data.Set.List

/-!
# Loading and saving with malformed elements

A registry that is loaded and saved keeps the elements of its file that come before the
first one that cannot be converted. An element without an id, where it is reached, leads to
undefined behaviour. The module state store keeps all names, or none when one element is no
string.
-/

namespace NexusMainframe

namespace Registry

variable {ε : Type} {entry : RegistryEntry ε}

/-- The elements that the loop of `load` can convert, up to the first that it cannot. -/
def readable (entry : RegistryEntry ε) (items : List Json) : List Json :=
  items.takeWhile fun item => (entry.fromJson item).isSome

/-- An element with an id that describes a value. -/
def WellFormed (entry : RegistryEntry ε) (item : Json) (e : ε) : Prop :=
  entry.fromJson item = some e ∧ item.member (Bytes.ofAscii "id") ≠ none

/-- The loop ends without undefined behaviour just if the elements that it converts have
ids. -/
theorem loadItems_eq_none {r : Registry ε} {items : List Json} :
  loadItems entry r items = none
    ↔ ∃ item ∈ readable entry items, item.member (Bytes.ofAscii "id") = none
  := by
  induction items generalizing r with
  | nil => simp [loadItems, readable]
  | cons item items ih =>
      rcases loadItems_cons entry r item items with
        ⟨hnone, hload⟩ | ⟨e, he, hid, hload⟩ | ⟨e, he, hid, hload⟩
      · simp [hload, readable, hnone]
      · simp [hload, readable, he, hid]
      · rw [hload, ih]
        simp [readable, he, hid]

/-- The values that the loop has converted are in the registry when it ends. -/
theorem loadItems_eq_some
    {r r' : Registry ε} {items : List Json} (h : loadItems entry r items = some r') :
  r' = insertAll entry r ((readable entry items).filterMap entry.fromJson)
  := by
  induction items generalizing r with
  | nil =>
      cases h
      rfl
  | cons item items ih =>
      rcases loadItems_cons entry r item items with
        ⟨hnone, hload⟩ | ⟨e, he, hid, hload⟩ | ⟨e, he, hid, hload⟩
      · rw [hload] at h
        cases h
        simp [readable, hnone, insertAll]
      · rw [hload] at h
        cases h
      · rw [hload] at h
        rw [ih h]
        simp [readable, he, insertAll]

/-- The file is loaded without undefined behaviour, and when it is saved it has every value
that a well-formed element of it described. -/
def LoadSaveKeeps (entry : RegistryEntry ε) (c : Json.Codec) (text : Bytes)
    (items : List Json) : Prop :=
  ∃ r, load entry c.parse ∅ (some text) = some r ∧ ∀ es, Lists es r →
    ∃ text' saved, save entry c.dump es = some text' ∧ c.parse text' = some (.array saved)
      ∧ ∀ item ∈ items, ∀ e, WellFormed entry item e → entry.toJson e ∈ saved

/-- The elements up to the first that cannot be converted have ids, and the last of them with
the id of a well-formed element describes the same value. -/
def ReadsAll (entry : RegistryEntry ε) (items : List Json) : Prop :=
  (∀ item ∈ readable entry items, item.member (Bytes.ofAscii "id") ≠ none)
    ∧ ∀ item ∈ items, ∀ e, WellFormed entry item e →
      last entry ((readable entry items).filterMap entry.fromJson) (entry.id e) = some e

/-- The values that are read from a proper array have proper JSON values. -/
theorem proper_of_last
    {items : List Json} (hproper : (Json.array items).Proper) (hvalid : (Json.array items).Valid)
    {id : Bytes} {e : ε}
    (h : last entry ((readable entry items).filterMap entry.fromJson) id = some e) :
  (entry.toJson e).Proper ∧ (entry.toJson e).Valid
  := by
  obtain ⟨item, hitem, he⟩ := List.mem_filterMap.mp
    (List.mem_reverse.mp (List.mem_of_find?_eq_some h))
  have hitem : item ∈ items := (List.takeWhile_sublist _).mem hitem
  constructor
  · apply entry.proper_fromJson item e (Json.proper_array.mp hproper item hitem) he
  · apply entry.valid_fromJson item e (Json.valid_array.mp hvalid item hitem) he

theorem exists_loadItems_iff {items : List Json} :
  (∃ r, loadItems entry ∅ items = some r)
    ↔ ∀ item ∈ readable entry items, item.member (Bytes.ofAscii "id") ≠ none
  := by
  rw [← Option.ne_none_iff_exists', Ne, loadItems_eq_none]
  simp

/-- The values of the loaded registry are those that come last with their ids. -/
theorem mem_iff_of_loadItems
    {items : List Json} {r : Registry ε} {es : List ε} (hr : loadItems entry ∅ items = some r)
    (hes : Lists es r) (e : ε) :
  e ∈ es ↔ last entry ((readable entry items).filterMap entry.fromJson) (entry.id e) = some e
  := by
  rw [hes.mem_iff]
  constructor
  · rintro ⟨id, hid⟩
    rw [loadItems_eq_some hr, lookup_insertAll, Finmap.lookup_empty, Option.or_none] at hid
    have heq := List.find?_some hid
    rwa [of_decide_eq_true heq]
  · intro hlast
    use entry.id e
    rw [loadItems_eq_some hr, lookup_insertAll, hlast, Option.some_or]

theorem loadSaveKeeps_iff
    (entry : RegistryEntry ε) {c : Json.Codec} (hc : c.Spec) {text : Bytes} {items : List Json}
    (htext : c.parse text = some (.array items)) :
  LoadSaveKeeps entry c text items ↔ ReadsAll entry items
  := by
  obtain ⟨hproper, hvalid⟩ := hc.proper_of_parse text _ htext
  have hload : load entry c.parse ∅ (some text) = loadItems entry ∅ items := by
    rw [load, htext]
    rfl
  have hsaves : ∀ {r es}, loadItems entry ∅ items = some r → Lists es r →
      ∃ text', save entry c.dump es = some text'
        ∧ c.parse text' = some (.array (es.map entry.toJson)) := by
    intro r es hr hes
    apply parse_save hc
    intro e he
    apply proper_of_last hproper hvalid ((mem_iff_of_loadItems hr hes e).mp he)
  rw [LoadSaveKeeps, hload]
  constructor
  · rintro ⟨r, hr, hsave⟩
    use exists_loadItems_iff.mp ⟨r, hr⟩
    intro item hitem e he
    obtain ⟨es, hes⟩ := exists_lists r
    obtain ⟨text', saved, hdump, hparse, hsaved⟩ := hsave es hes
    obtain ⟨text'', hdump', hparse'⟩ := hsaves hr hes
    obtain rfl := Option.some.inj (hdump.symm.trans hdump')
    obtain rfl := Json.array.inj (Option.some.inj (hparse.symm.trans hparse'))
    apply (mem_iff_of_loadItems hr hes e).mp
    apply (List.mem_map_of_injective (toJson_injective entry)).mp
    apply hsaved item hitem e he
  · rintro ⟨hhas, hlast⟩
    obtain ⟨r, hr⟩ := exists_loadItems_iff.mpr hhas
    use r, hr
    intro es hes
    obtain ⟨text', hdump, hparse⟩ := hsaves hr hes
    use text', es.map entry.toJson, hdump, hparse
    intro item hitem e he
    apply List.mem_map_of_mem
    apply (mem_iff_of_loadItems hr hes e).mpr (hlast item hitem e he)

end Registry

namespace ModuleStateStore

/-- When the loaded file is saved it has every name that was among the elements of it. -/
def LoadSaveKeeps (c : Json.Codec) (text : Bytes) (elements : List Json) : Prop :=
  ∃ text' j saved, c.dump (toJson (load c.parse [] (some text))) = some text'
    ∧ c.parse text' = some j ∧ j.member (Bytes.ofAscii "enabled") = some (.array saved)
    ∧ ∀ name, .string name ∈ elements → .string name ∈ saved

/-- All elements are strings, or none is. -/
def ReadsAll (elements : List Json) : Prop :=
  (∀ j ∈ elements, ∃ name, j = .string name) ∨ ∀ name, .string name ∉ elements

/-- The file that is saved has the names that were loaded. -/
theorem loadSaveKeeps_iff_of_load
    {c : Json.Codec} (hc : c.Spec) {text : Bytes} {elements : List Json} {names : List Bytes}
    (hload : load c.parse [] (some text) = names) (hvalid : ∀ name ∈ names, Utf8.Valid name) :
  LoadSaveKeeps c text elements ↔ ∀ name, .string name ∈ elements → name ∈ names
  := by
  have hmem : ∀ name, Json.string name ∈ names.map Json.string ↔ name ∈ names := fun name =>
    List.mem_map_of_injective fun _ _ => Json.string.inj
  obtain ⟨text', hdump⟩ := hc.exists_dump (valid_toJson.mpr hvalid)
  have hparse := hc.parse_dump _ _ (proper_toJson names) hdump
  rw [LoadSaveKeeps, hload]
  constructor
  · rintro ⟨text'', j, saved, hdump', hparse', hj, hsaved⟩ name hname
    obtain rfl := Option.some.inj (hdump.symm.trans hdump')
    obtain rfl := Option.some.inj (hparse.symm.trans hparse')
    obtain rfl := Json.array.inj (Option.some.inj hj)
    apply (hmem name).mp (hsaved name hname)
  · intro h
    use text', toJson names, names.map .string, hdump, hparse, rfl
    intro name hname
    apply (hmem name).mpr (h name hname)

theorem loadSaveKeeps_iff
    {c : Json.Codec} (hc : c.Spec) {text : Bytes} {j : Json} {elements : List Json}
    (htext : c.parse text = some j)
    (hj : j.member (Bytes.ofAscii "enabled") = some (.array elements)) :
  LoadSaveKeeps c text elements ↔ ReadsAll elements
  := by
  have hvalid : (Json.array elements).Valid := (hc.proper_of_parse text j htext).2.member hj
  have hload : load c.parse [] (some text) = (elements.mapM Json.asString).getD [] := by
    cases j with
    | object members =>
        have hlookup : members.lookup (Bytes.ofAscii "enabled") = some (.array elements) := hj
        simp only [load, htext, Option.bind_some, readNames, Json.valueAs, hlookup]
        rfl
    | _ => cases hj
  cases hnames : elements.mapM Json.asString with
  | some names =>
      obtain rfl := Json.mapM_asString_eq_some hnames
      rw [hnames, Option.getD_some] at hload
      have hvalid : ∀ name ∈ names, Utf8.Valid name := by simpa using hvalid
      rw [loadSaveKeeps_iff_of_load hc hload hvalid]
      constructor
      · intro _
        left
        intro j hj
        obtain ⟨name, -, rfl⟩ := List.mem_map.mp hj
        use name
      · rintro - name hname
        simpa using hname
  | none =>
      rw [hnames, Option.getD_none] at hload
      rw [loadSaveKeeps_iff_of_load hc hload (List.forall_mem_nil _)]
      constructor
      · intro h
        right
        intro name hname
        cases h name hname
      · rintro (hall | hnone) name hname
        · obtain ⟨names, rfl⟩ : elements ∈ Set.range (List.map Json.string) := by
            rw [Set.range_list_map]
            intro j hj
            obtain ⟨name, rfl⟩ := hall j hj
            use name
          rw [Json.mapM_asString_map] at hnames
          cases hnames
        · cases hnone name hname

end ModuleStateStore

/-! ### All stores -/

/-- A file of devices or rooms is loaded and saved without a loss just if `ReadsAll` holds of
its elements, and a file of enabled modules just if all or none of its elements are
strings. -/
theorem loadSaveKeeps_iff_readsAll
    (c c' : Json.Codec) (hc : c.Spec) (hc' : c'.Spec) (text : Bytes) :
  (∀ items, c.parse text = some (.array items) →
    (Registry.LoadSaveKeeps Device.entry c text items ↔ Registry.ReadsAll Device.entry items)
      ∧ (Registry.LoadSaveKeeps Room.entry c text items
        ↔ Registry.ReadsAll Room.entry items))
    ∧ ∀ j elements, c'.parse text = some j →
      j.member (Bytes.ofAscii "enabled") = some (.array elements) →
      (ModuleStateStore.LoadSaveKeeps c' text elements ↔ ModuleStateStore.ReadsAll elements)
  := by
  constructor
  · intro items htext
    constructor
    · apply Registry.loadSaveKeeps_iff Device.entry hc htext
    · apply Registry.loadSaveKeeps_iff Room.entry hc htext
  · intro j elements htext hj
    apply ModuleStateStore.loadSaveKeeps_iff hc' htext hj

/-- The array of a file, as it is written. -/
def arrayText (items : List Json) : Bytes :=
  JsonText.print 2 0 (.array items)

theorem parse_arrayText {items : List Json} (h : ∀ j ∈ items, j.Proper ∧ j.Valid) :
  (JsonText.codec 2).parse (arrayText items) = some (.array items)
  := by
  apply JsonText.codec_parse_print
  · apply Json.proper_array.mpr fun j hj => (h j hj).1
  · apply Json.valid_array.mpr fun j hj => (h j hj).2

/-- A file with a room, and one with the name of a module. -/
theorem loadSaveKeeps_iff_readsAll_hall :
  Registry.LoadSaveKeeps Room.entry (JsonText.codec 2) (arrayText [Room.hall.toJson])
      [Room.hall.toJson]
    ∧ ModuleStateStore.LoadSaveKeeps (JsonText.codec 4)
      (JsonText.print 4 0 (ModuleStateStore.toJson [Bytes.ofAscii "Lights"]))
      [.string (Bytes.ofAscii "Lights")]
  := by
  have hkeeps := loadSaveKeeps_iff_readsAll (JsonText.codec 2) (JsonText.codec 4)
    (JsonText.codec_spec 2) (JsonText.codec_spec 4)
  constructor
  · have hparse : (JsonText.codec 2).parse (arrayText [Room.hall.toJson])
        = some (.array [Room.hall.toJson]) := parse_arrayText (by decide +kernel)
    rw [((hkeeps _).1 _ hparse).2]
    constructor
    · decide +kernel
    · rintro item hitem e ⟨he, -⟩
      obtain rfl := List.mem_singleton.mp hitem
      obtain rfl := Option.some.inj ((Room.entry.fromJson_toJson Room.hall).symm.trans he)
      decide +kernel
  · have hparse : (JsonText.codec 4).parse
          (JsonText.print 4 0 (ModuleStateStore.toJson [Bytes.ofAscii "Lights"]))
        = some (ModuleStateStore.toJson [Bytes.ofAscii "Lights"]) :=
      JsonText.codec_parse_print (by decide) (by decide +kernel) 4
    apply ((hkeeps _).2 _ _ hparse rfl).mpr
    left
    simp

/-- A room without an id makes `load` go wrong, a number in front of a room loses the room,
and a number among the names of modules loses them. -/
theorem not_loadSaveKeeps :
  (¬ ∀ c : Json.Codec, c.Spec → ∀ text items, c.parse text = some (.array items) →
      ∃ r, RoomRegistry.load c.parse ∅ (some text) = some r)
    ∧ (¬ ∀ c : Json.Codec, c.Spec → ∀ text items, c.parse text = some (.array items) →
      Registry.LoadSaveKeeps Room.entry c text items)
    ∧ ¬ ∀ c : Json.Codec, c.Spec → ∀ text j elements, c.parse text = some j →
      j.member (Bytes.ofAscii "enabled") = some (.array elements) →
      ModuleStateStore.LoadSaveKeeps c text elements
  := by
  constructor
  · intro h
    have hparse : (JsonText.codec 2).parse
          (arrayText [.object [(Bytes.ofAscii "name", .string (Bytes.ofAscii "Hall"))]])
        = some (.array [.object [(Bytes.ofAscii "name", .string (Bytes.ofAscii "Hall"))]]) :=
      parse_arrayText (by decide +kernel)
    obtain ⟨r, hr⟩ := h _ (JsonText.codec_spec 2) _ _ hparse
    rw [RoomRegistry.load, Registry.load, hparse] at hr
    cases hr
  · constructor
    · intro h
      have hparse : (JsonText.codec 2).parse (arrayText [.integer 5, Room.hall.toJson])
          = some (.array [.integer 5, Room.hall.toJson]) := parse_arrayText (by decide +kernel)
      have hkeeps := h _ (JsonText.codec_spec 2) _ _ hparse
      rw [Registry.loadSaveKeeps_iff Room.entry (JsonText.codec_spec 2) hparse] at hkeeps
      have hwell : Registry.WellFormed Room.entry Room.hall.toJson Room.hall :=
        ⟨Room.entry.fromJson_toJson Room.hall, by decide⟩
      cases hkeeps.2 Room.hall.toJson (by simp) Room.hall hwell
    · intro h
      have hparse : (JsonText.codec 4).parse (JsonText.print 4 0
            (.object [(Bytes.ofAscii "enabled",
              .array [.string (Bytes.ofAscii "Lights"), .integer 5])]))
          = some (.object [(Bytes.ofAscii "enabled",
              .array [.string (Bytes.ofAscii "Lights"), .integer 5])]) :=
        JsonText.codec_parse_print (by decide) (by decide +kernel) 4
      have hkeeps := h _ (JsonText.codec_spec 4) _ _ _ hparse rfl
      rw [ModuleStateStore.loadSaveKeeps_iff (JsonText.codec_spec 4) hparse rfl] at hkeeps
      rcases hkeeps with hall | hnone
      · obtain ⟨name, hname⟩ := hall (.integer 5) (by simp)
        cases hname
      · apply hnone (Bytes.ofAscii "Lights")
        simp

end NexusMainframe
