import NexusMainframe.Devices.DeviceRegistry
import NexusMainframe.Lib.JsonText
import NexusMainframe.Lib.Overwrite
import NexusMainframe.Modules.ModuleStateStore
import NexusMainframe.Rooms.RoomRegistry

/-!
# Stops while a file is saved

A registry and the module state store save by opening their file, which empties it, and
writing the whole text. When the process stops on the way, the file has a part of the text,
and the next process cannot parse it and starts empty.
-/

namespace NexusMainframe

namespace Registry

variable {ε : Type} {entry : RegistryEntry ε}

/-- The contents that a registry can have. -/
def Contents (entry : RegistryEntry ε) :=
  { r : Registry ε // IsContents entry r }

/-- A new process loads the old contents from the file or the new ones, where `text` was in
the file and a process stopped when it was saving `es`. -/
def LoadsOldOrNew (entry : RegistryEntry ε) (c : Json.Codec) (old new : Registry ε)
    (text : Bytes) (es : List ε) (stop : Overwrite.Stop) : Prop :=
  let file := Overwrite.after text (save entry c.dump es) stop
  load entry c.parse ∅ (some file) = some old ∨ load entry c.parse ∅ (some file) = some new

/-- `load` reads what `save` writes. -/
theorem reads_save
    {c : Json.Codec} (hc : c.Spec) {old new : Registry ε} (hold : IsContents entry old)
    (hnew : IsContents entry new) {es es' : List ε} (hes : Lists es old) (hes' : Lists es' new)
    {text : Bytes} (htext : save entry c.dump es = some text) :
  Overwrite.Reads (fun text => load entry c.parse ∅ (some text)) (some ∅) text
    (save entry c.dump es') (some old) (some new)
  := by
  constructor
  · apply hold.load_save hc hes htext
  · intro text' htext'
    apply hnew.load_save hc hes' htext'
  · intro part hpart hne
    have hparse : c.parse part = none := hc.parse_part (Or.inl ⟨_, rfl⟩) hpart hne
    rw [load, hparse]

theorem loadsOldOrNew_iff
    {c : Json.Codec} (hc : c.Spec) (old new : Contents entry) {es es' : List ε}
    (hes : Lists es old.val) (hes' : Lists es' new.val) {text : Bytes}
    (htext : save entry c.dump es = some text) (stop : Overwrite.Stop) :
  LoadsOldOrNew entry c old.val new.val text es' stop
    ↔ Overwrite.Harmless (some ∅) (save entry c.dump es') (some old.val) (some new.val) stop
  := (reads_save hc old.property new.property hes hes' htext).read_after_iff stop

end Registry

namespace ModuleStateStore

/-- A new process loads the old names from the file or the new ones, where `text` was in the
file and a process stopped when it was saving. -/
def LoadsOldOrNew (c : Json.Codec) (old new : List Bytes) (text : Bytes)
    (stop : Overwrite.Stop) : Prop :=
  let file := Overwrite.after text (c.dump (toJson new)) stop
  load c.parse [] (some file) = old ∨ load c.parse [] (some file) = new

theorem loadsOldOrNew_iff
    {c : Json.Codec} (hc : c.Spec) {old new : List Bytes} {text : Bytes}
    (htext : c.dump (toJson old) = some text) (stop : Overwrite.Stop) :
  LoadsOldOrNew c old new text stop
    ↔ Overwrite.Harmless [] (c.dump (toJson new)) old new stop
  := by
  have hreads : Overwrite.Reads (fun text => load c.parse [] (some text)) [] text
      (c.dump (toJson new)) old new := by
    constructor
    · apply load_dump hc htext
    · intro text' htext'
      apply load_dump hc htext'
    · intro part hpart hne
      have hparse := hc.parse_part (isContainer_toJson new) hpart hne
      rw [load, hparse]
      rfl
  apply hreads.read_after_iff stop

end ModuleStateStore

/-! ### All stores -/

/-- After a stop while devices, rooms or the names of modules are saved, the next process
loads the old content or the new one just if the stop is harmless: the file was not opened
yet, the text was written whole, or one of the contents is empty. -/
theorem loadsOldOrNew_iff_harmless
    (c c' : Json.Codec) (hc : c.Spec) (hc' : c'.Spec) (stop : Overwrite.Stop) :
  (∀ (old new : Registry.Contents Device.entry) (ds ds' : List Device) (text : Bytes),
    Registry.Lists ds old.val → Registry.Lists ds' new.val →
    DeviceRegistry.save c.dump ds = some text →
    (Registry.LoadsOldOrNew Device.entry c old.val new.val text ds' stop
      ↔ Overwrite.Harmless (some ∅) (DeviceRegistry.save c.dump ds') (some old.val)
        (some new.val) stop))
    ∧ (∀ (old new : Registry.Contents Room.entry) (rs rs' : List Room) (text : Bytes),
      Registry.Lists rs old.val → Registry.Lists rs' new.val →
      RoomRegistry.save c.dump rs = some text →
      (Registry.LoadsOldOrNew Room.entry c old.val new.val text rs' stop
        ↔ Overwrite.Harmless (some ∅) (RoomRegistry.save c.dump rs') (some old.val)
          (some new.val) stop))
    ∧ ∀ (old new : List Bytes) (text : Bytes),
      c'.dump (ModuleStateStore.toJson old) = some text →
      (ModuleStateStore.LoadsOldOrNew c' old new text stop
        ↔ Overwrite.Harmless [] (c'.dump (ModuleStateStore.toJson new)) old new stop)
  := by
  constructor
  · intro old new ds ds' text hds hds' htext
    apply Registry.loadsOldOrNew_iff hc old new hds hds' htext stop
  · constructor
    · intro old new rs rs' text hrs hrs' htext
      apply Registry.loadsOldOrNew_iff hc old new hrs hrs' htext stop
    · intro old new text htext
      apply ModuleStateStore.loadsOldOrNew_iff hc' htext stop

/-- A registry with a room. -/
def hallContents : Registry.Contents Room.entry :=
  ⟨(RoomRegistry.add ∅ Room.hall).1,
    (Registry.isContents_empty Room.entry).add (Room.proper_toJson Room.hall)⟩

/-- A registry with the room without its device. -/
def bareContents : Registry.Contents Room.entry :=
  ⟨(RoomRegistry.add ∅ { Room.hall with deviceIds := [] }).1,
    (Registry.isContents_empty Room.entry).add (Room.proper_toJson _)⟩

theorem lists_hallContents : Registry.Lists [Room.hall] hallContents.val :=
  rfl

theorem lists_bareContents :
  Registry.Lists [{ Room.hall with deviceIds := [] }] bareContents.val
  := rfl

theorem save_hall :
  RoomRegistry.save (JsonText.codec 2).dump [Room.hall]
    = some (JsonText.print 2 0 (.array [Room.hall.toJson]))
  := JsonText.codec_dump (by decide +kernel) 2

/-- The process stops when it has written the text. -/
theorem loadsOldOrNew_iff_harmless_hall :
  Registry.LoadsOldOrNew Room.entry (JsonText.codec 2) bareContents.val hallContents.val
    (JsonText.print 2 0 (.array [Room.toJson { Room.hall with deviceIds := [] }])) [Room.hall]
    (.wrote 200)
  := by
  apply ((loadsOldOrNew_iff_harmless (JsonText.codec 2) (JsonText.codec 4)
    (JsonText.codec_spec 2) (JsonText.codec_spec 4) (.wrote 200)).2.1 bareContents hallContents
    _ _ _ lists_bareContents lists_hallContents
    (JsonText.codec_dump (by decide +kernel) 2)).mpr
  right
  right
  right
  use 200, JsonText.print 2 0 (.array [Room.hall.toJson]), rfl, save_hall
  decide +kernel

/-- A device is taken out of a room, and the process stops when it has opened the file: the
next process has no room. -/
theorem not_loadsOldOrNew :
  ¬ ∀ c : Json.Codec, c.Spec → ∀ (old new : Registry.Contents Room.entry) (rs rs' : List Room)
    (text : Bytes) (stop : Overwrite.Stop), Registry.Lists rs old.val →
    Registry.Lists rs' new.val → RoomRegistry.save c.dump rs = some text →
    Registry.LoadsOldOrNew Room.entry c old.val new.val text rs' stop
  := by
  intro h
  have heither := h _ (JsonText.codec_spec 2) hallContents bareContents _ _ _ (.wrote 0)
    lists_hallContents lists_bareContents save_hall
  rw [Registry.loadsOldOrNew_iff (JsonText.codec_spec 2) hallContents bareContents
    lists_hallContents lists_bareContents save_hall] at heither
  rcases heither with hstop | hempty | hempty | ⟨n, t, hstop, htext, hle⟩
  · cases hstop
  · apply lists_hallContents.ne_empty (Option.some.inj hempty)
  · apply lists_bareContents.ne_empty (Option.some.inj hempty)
  · cases hstop
    obtain rfl := List.length_eq_zero_iff.mp (Nat.le_zero.mp hle)
    revert htext
    decide +kernel

end NexusMainframe
