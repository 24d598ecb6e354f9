import NexusMainframe.Lib.FiniteMap
import NexusMainframe.Lib.JsonCodec

/-!
# Registries

A registry keeps values by their ids, in memory and in a file with an array of their JSON
values. The devices and the rooms are kept in one each; what the two have in common is here,
for any type of values with an id and a conversion to JSON and back.

`load` goes through the elements of the file and puts each into the registry under its
member `id`. An element that cannot be converted ends the loop, and what was loaded before it
remains. The member is read with the `operator[]` of a constant value, which has undefined
behaviour when the key is absent; `load` is nothing then.
-/

namespace NexusMainframe

/-- How values are kept in a registry: their id, and the conversion to JSON and back, which
fails on a value of another shape. -/
structure RegistryEntry (ε : Type) where
  id : ε → Bytes
  toJson : ε → Json
  fromJson : Json → Option ε
  fromJson_toJson : ∀ e, fromJson (toJson e) = some e
  member_id_toJson : ∀ e, (toJson e).member (Bytes.ofAscii "id") = some (.string (id e))
  id_fromJson : ∀ j e, fromJson j = some e →
    j.valueAs Json.asString (Bytes.ofAscii "id") [] = some (id e)
  proper_fromJson : ∀ j e, j.Proper → fromJson j = some e → (toJson e).Proper
  valid_fromJson : ∀ j e, j.Valid → fromJson j = some e → (toJson e).Valid

/-- The values of a registry, by their ids. -/
abbrev Registry (ε : Type) :=
  Finmap fun _ : Bytes => ε

theorem RegistryEntry.fromJson_eq_some
    {ε : Type} (entry : RegistryEntry ε) {j : Json} {e : ε} (h : entry.fromJson j = some e) :
  j.member (Bytes.ofAscii "id") = none
    ∨ j.member (Bytes.ofAscii "id") = some (.string (entry.id e))
  := by
  have hid := entry.id_fromJson j e h
  cases j with
  | object members =>
      simp only [Json.valueAs, Json.member] at hid ⊢
      cases hlookup : members.lookup (Bytes.ofAscii "id") with
      | none =>
          left
          rfl
      | some v =>
          right
          rw [hlookup] at hid
          cases v with
          | string s =>
              obtain rfl := Option.some.inj hid
              rfl
          | _ => cases hid
  | _ =>
      left
      rfl

namespace Registry

variable {ε : Type} (entry : RegistryEntry ε)

/-! ### In memory -/

/-- `add`: an id that is taken is refused. -/
def add (r : Registry ε) (e : ε) : Registry ε × Bool :=
  if entry.id e ∈ r then (r, false) else (r.insert (entry.id e) e, true)

/-- `get`. -/
def get (r : Registry ε) (id : Bytes) : Option ε :=
  r.lookup id

/-- `exists`. -/
def exists' (r : Registry ε) (id : Bytes) : Bool :=
  id ∈ r

/-- `remove`: whether there was such an id. -/
def remove (r : Registry ε) (id : Bytes) : Registry ε × Bool :=
  if id ∈ r then (r.erase id, true) else (r, false)

variable {entry} {r : Registry ε}

theorem add_of_lookup_none {e : ε} (h : r.lookup (entry.id e) = none) :
  add entry r e = (r.insert (entry.id e) e, true)
  := if_neg (Finmap.lookup_eq_none.mp h)

theorem add_of_lookup_some {e e' : ε} (h : r.lookup (entry.id e) = some e') :
  add entry r e = (r, false)
  := if_pos (Finmap.mem_iff.mpr ⟨e', h⟩)

theorem exists'_eq (r : Registry ε) (id : Bytes) :
  exists' r id = (r.lookup id).isSome
  := by
  unfold exists'
  cases h : r.lookup id with
  | none => simpa using Finmap.lookup_eq_none.mp h
  | some e => simpa using Finmap.mem_iff.mpr ⟨e, h⟩

theorem remove_of_lookup_none {id : Bytes} (h : r.lookup id = none) :
  remove r id = (r, false)
  := if_neg (Finmap.lookup_eq_none.mp h)

theorem remove_of_lookup_some {id : Bytes} {e : ε} (h : r.lookup id = some e) :
  remove r id = (r.erase id, true)
  := if_pos (Finmap.mem_iff.mpr ⟨e, h⟩)

variable (entry)

/-! ### In the file -/

/-- The loop of `load` over the elements of the file. -/
def loadItems : Registry ε → List Json → Option (Registry ε)
  | r, [] => some r
  | r, item :: items =>
      -- the value is converted before its id is read
      match entry.fromJson item with
      | none => some r
      | some e =>
          match item.member (Bytes.ofAscii "id") with
          | none => none
          | some id =>
              match id.asString with
              | none => some r
              | some id => loadItems (r.insert id e) items

/-- The registry after `load`, unless it has undefined behaviour. -/
def load (parse : Bytes → Option Json) (r : Registry ε) : Option Bytes → Option (Registry ε)
  | none => some r
  | some text =>
      match parse text with
      | none => some r
      | some j => loadItems entry r j.items

/-- The values of a registry, in the order in which its table goes through them. -/
def Lists (es : List ε) (r : Registry ε) : Prop :=
  (es : Multiset ε) = r.entries.map Sigma.snd

/-- The text that `save` writes, unless the serialiser throws. -/
def save (dump : Json → Option Bytes) (es : List ε) : Option Bytes :=
  dump (.array (es.map entry.toJson))

/-! ### Values in order -/

variable {entry} {es : List ε}

/-- The registry after values have been put into it. -/
def insertAll (entry : RegistryEntry ε) (r : Registry ε) (es : List ε) : Registry ε :=
  es.foldl (fun r e => r.insert (entry.id e) e) r

/-- The last of some values that has an id. -/
def last (entry : RegistryEntry ε) (es : List ε) (id : Bytes) : Option ε :=
  es.reverse.find? fun e => entry.id e = id

theorem lookup_insertAll (r : Registry ε) (es : List ε) (id : Bytes) :
  (insertAll entry r es).lookup id = (last entry es id).or (r.lookup id)
  := by
  induction es using List.reverseRec with
  | nil => rfl
  | append_singleton es e ih =>
      rw [insertAll, List.foldl_concat, last, List.reverse_append, List.reverse_singleton,
        List.singleton_append]
      by_cases h : entry.id e = id
      · rw [List.find?_cons_of_pos (by simpa using h), ← h, Finmap.lookup_insert, Option.some_or]
      · rw [List.find?_cons_of_neg (by simpa using h), Finmap.lookup_insert_of_ne _ (Ne.symm h)]
        apply ih

theorem Lists.mem_iff (h : Lists es r) {e : ε} :
  e ∈ es ↔ ∃ id, r.lookup id = some e
  := by
  rw [← Multiset.mem_coe, h, Multiset.mem_map]
  constructor
  · rintro ⟨⟨id, e'⟩, hmem, rfl⟩
    use id
    apply Finmap.mem_lookup_iff.mpr hmem
  · rintro ⟨id, hid⟩
    use ⟨id, e⟩, Finmap.mem_lookup_iff.mp hid

theorem Lists.ne_empty {e : ε} (h : Lists (e :: es) r) :
  r ≠ ∅
  := by
  rintro rfl
  obtain ⟨id, hid⟩ := h.mem_iff.mp List.mem_cons_self
  cases hid

/-- Two orders of the values of a registry. -/
theorem Lists.perm {es' : List ε} (h : Lists es r) (h' : Lists es' r) :
  es.Perm es'
  := Multiset.coe_eq_coe.mp (h.trans h'.symm)

theorem exists_lists (r : Registry ε) :
  ∃ es, Lists es r
  := Quot.exists_rep (r.entries.map Sigma.snd)

/-! ### The elements of a file -/

/-- What can happen to an element of the file. -/
theorem loadItems_cons (entry : RegistryEntry ε) (r : Registry ε) (item : Json)
    (items : List Json) :
  (entry.fromJson item = none ∧ loadItems entry r (item :: items) = some r)
    ∨ (∃ e, entry.fromJson item = some e ∧ item.member (Bytes.ofAscii "id") = none
        ∧ loadItems entry r (item :: items) = none)
    ∨ (∃ e, entry.fromJson item = some e
        ∧ item.member (Bytes.ofAscii "id") = some (.string (entry.id e))
        ∧ loadItems entry r (item :: items) = loadItems entry (r.insert (entry.id e) e) items)
  := by
  cases he : entry.fromJson item with
  | none =>
      left
      use rfl
      rw [loadItems, he]
  | some e =>
      right
      rcases entry.fromJson_eq_some he with hid | hid
      · left
        use e, rfl, hid
        rw [loadItems, he, hid]
      · right
        use e, rfl, hid
        rw [loadItems, he, hid]
        rfl

/-! ### Contents -/

/-- The values are kept under their ids and have proper JSON values. -/
structure IsContents (entry : RegistryEntry ε) (r : Registry ε) : Prop where
  id_of_lookup : ∀ {id e}, r.lookup id = some e → entry.id e = id
  proper_of_lookup : ∀ {id e}, r.lookup id = some e → (entry.toJson e).Proper

theorem isContents_empty (entry : RegistryEntry ε) :
  IsContents entry ∅
  := by
  constructor
  · intro id e h
    cases h
  · intro id e h
    cases h

theorem IsContents.insert
    (h : IsContents entry r) {e : ε} (he : (entry.toJson e).Proper) :
  IsContents entry (r.insert (entry.id e) e)
  := by
  constructor
  · intro id e' hid
    rcases FiniteMap.lookup_insert_eq_some.mp hid with ⟨rfl, rfl⟩ | ⟨-, hid⟩
    · rfl
    · apply h.id_of_lookup hid
  · intro id e' hid
    rcases FiniteMap.lookup_insert_eq_some.mp hid with ⟨rfl, rfl⟩ | ⟨-, hid⟩
    · apply he
    · apply h.proper_of_lookup hid

theorem IsContents.add
    (h : IsContents entry r) {e : ε} (he : (entry.toJson e).Proper) :
  IsContents entry (add entry r e).1
  := by
  unfold Registry.add
  split
  · apply h
  · apply h.insert he

theorem IsContents.remove (h : IsContents entry r) (id : Bytes) :
  IsContents entry (remove r id).1
  := by
  unfold Registry.remove
  split
  next =>
    constructor
    · intro id' e hid
      apply h.id_of_lookup (FiniteMap.lookup_erase_eq_some.mp hid).2
    · intro id' e hid
      apply h.proper_of_lookup (FiniteMap.lookup_erase_eq_some.mp hid).2
  next => apply h

theorem isContents_of_loadItems
    {items : List Json} (hitems : ∀ item ∈ items, item.Proper) {r r' : Registry ε}
    (hr : IsContents entry r) (h : loadItems entry r items = some r') :
  IsContents entry r'
  := by
  induction items generalizing r with
  | nil =>
      cases h
      apply hr
  | cons item items ih =>
      obtain ⟨hitem, hitems⟩ := List.forall_mem_cons.mp hitems
      rcases loadItems_cons entry r item items with
        ⟨-, hload⟩ | ⟨e, he, -, hload⟩ | ⟨e, he, -, hload⟩
      · rw [hload] at h
        cases h
        apply hr
      · rw [hload] at h
        cases h
      · rw [hload] at h
        apply ih hitems (hr.insert (entry.proper_fromJson item e hitem he)) h

/-- What is loaded from a file has contents again. -/
theorem IsContents.of_load
    {c : Json.Codec} (hc : c.Spec) (hr : IsContents entry r) {r' : Registry ε}
    {file : Option Bytes} (h : load entry c.parse r file = some r') :
  IsContents entry r'
  := by
  cases file with
  | none =>
      cases h
      apply hr
  | some text =>
      rw [load] at h
      split at h
      next =>
        cases h
        apply hr
      next j hj => apply isContents_of_loadItems (hc.proper_of_parse text j hj).1.items hr h

/-- The registry has just the listed values, each under its id. -/
theorem IsContents.last_of_lists
    (h : IsContents entry r) (hes : Lists es r) (id : Bytes) :
  last entry es id = r.lookup id
  := by
  have hlast : ∀ {e}, last entry es id = some e → r.lookup id = some e := by
    intro e he
    obtain ⟨id', hid'⟩ := hes.mem_iff.mp (List.mem_reverse.mp (List.mem_of_find?_eq_some he))
    have hid := List.find?_some he
    rw [← of_decide_eq_true hid, h.id_of_lookup hid']
    apply hid'
  cases he : last entry es id with
  | some e => rw [hlast he]
  | none =>
      cases hid : r.lookup id with
      | none => rfl
      | some e =>
          exfalso
          have hne := List.find?_eq_none.mp he e
            (List.mem_reverse.mpr (hes.mem_iff.mpr ⟨id, hid⟩))
          apply hne
          simpa using h.id_of_lookup hid

/-! ### Loading what was saved -/

theorem toJson_injective (entry : RegistryEntry ε) :
  Function.Injective entry.toJson
  := by
  intro e e' h
  have hread := entry.fromJson_toJson e
  rw [h, entry.fromJson_toJson] at hread
  apply (Option.some.inj hread).symm

/-- Values with proper JSON values, whose strings are UTF-8, are saved and read back. -/
theorem parse_save
    {c : Json.Codec} (hc : c.Spec) {es : List ε}
    (h : ∀ e ∈ es, (entry.toJson e).Proper ∧ (entry.toJson e).Valid) :
  ∃ text, save entry c.dump es = some text
    ∧ c.parse text = some (.array (es.map entry.toJson))
  := by
  have hvalid : (Json.array (es.map entry.toJson)).Valid := by
    simpa using fun e he => (h e he).2
  have hproper : (Json.array (es.map entry.toJson)).Proper := by
    simpa using fun e he => (h e he).1
  obtain ⟨text, htext⟩ := hc.exists_dump hvalid
  use text, htext
  apply hc.parse_dump _ _ hproper htext

/-- Whether the values can be saved does not depend on their order. -/
theorem save_eq_none_iff_of_perm
    {c : Json.Codec} (hc : c.Spec) {es es' : List ε} (h : es.Perm es') :
  save entry c.dump es = none ↔ save entry c.dump es' = none
  := by
  rw [save, save, hc.dump_eq_none, hc.dump_eq_none, Json.valid_array, Json.valid_array]
  simp only [(h.map entry.toJson).mem_iff]

theorem loadItems_map_toJson (r : Registry ε) (es : List ε) :
  loadItems entry r (es.map entry.toJson) = some (insertAll entry r es)
  := by
  induction es generalizing r with
  | nil => rfl
  | cons e es ih =>
      rw [List.map_cons, loadItems, entry.fromJson_toJson, entry.member_id_toJson]
      apply ih

/-- What has been saved is loaded again. -/
theorem IsContents.load_save
    {c : Json.Codec} (hc : c.Spec) (h : IsContents entry r) (hes : Lists es r) {text : Bytes}
    (htext : save entry c.dump es = some text) :
  load entry c.parse ∅ (some text) = some r
  := by
  have hproper : (Json.array (es.map entry.toJson)).Proper := by
    rw [Json.proper_array]
    intro j hj
    obtain ⟨e, he, rfl⟩ := List.mem_map.mp hj
    obtain ⟨id, hid⟩ := hes.mem_iff.mp he
    apply h.proper_of_lookup hid
  have hload : load entry c.parse ∅ (some text)
      = loadItems entry ∅ (es.map entry.toJson) := by
    rw [load, hc.parse_dump _ _ hproper htext]
    rfl
  rw [hload, loadItems_map_toJson, Option.some.injEq]
  apply Finmap.ext_lookup
  intro id
  rw [lookup_insertAll, h.last_of_lists hes, Finmap.lookup_empty, Option.or_none]

end Registry

end NexusMainframe
