import NexusMainframe.Http.DeviceController

/-!
# The room controller

The handlers of the room routes. Their answers for an id that is not known, like those of the
device controller, have the id in them, which makes the handler throw if it is not UTF-8.
-/

namespace NexusMainframe

namespace Http

variable {κ : Type}

namespace RoomController

/-- `GET /api/rooms`, with the devices of each room. -/
def index (c : Json.Codec) (m : Moment) (s : Services κ) : Services κ × Option Response :=
  sendJson c s (.array ((m.rooms.list s.memory.rooms).map (RoomService.expand s)))

/-- `POST /api/rooms`; a name that is no string makes it throw. -/
def create (c pretty : Json.Codec) (m : Moment) (s : Services κ) (raw : Bytes) :
    Services κ × Option Response :=
  match c.parse raw with
  | none => send c s invalidBody
  | some body =>
      match body.valueAs Json.asString (Bytes.ofAscii "name") [] with
      | some name => sendResult c (RoomService.add pretty m s name)
      | none => (s, none)

/-- `GET /api/rooms/:id`. -/
def show' (c : Json.Codec) (s : Services κ) (id : Bytes) : Services κ × Option Response :=
  match Registry.get s.memory.rooms id with
  | none => send c s (NexusMainframe.RoomService.notFound id)
  | some room => sendJson c s (RoomService.expand s room)

/-- `DELETE /api/rooms/:id`. -/
def destroy (c pretty : Json.Codec) (m : Moment) (s : Services κ) (id : Bytes) :
    Services κ × Option Response :=
  sendResult c (RoomService.remove pretty m s id)

/-- `POST /api/rooms/:id/devices/:deviceId`. -/
def addDevice (c pretty : Json.Codec) (m : Moment) (s : Services κ) (roomId deviceId : Bytes) :
    Services κ × Option Response :=
  sendResult c (RoomService.addDevice pretty m s roomId deviceId)

/-- `DELETE /api/rooms/:id/devices/:deviceId`. -/
def removeDevice (c pretty : Json.Codec) (m : Moment) (s : Services κ)
    (roomId deviceId : Bytes) : Services κ × Option Response :=
  sendResult c (RoomService.removeDevice pretty m s roomId deviceId)

end RoomController

/-! ### Ids that are not known -/

/-- Nothing has changed, and the response has the status 404 and a JSON value whose output has
the id in it. -/
def AnswersNotFound (c : Json.Codec) (s : Services κ) (id : Bytes)
    (out : Services κ × Option Response) : Prop :=
  out.1 = s ∧ ∃ body j output, out.2 = some ⟨404, body⟩ ∧ c.parse body = some j
    ∧ j.member (Bytes.ofAscii "output") = some (.string output) ∧ id <:+: output

section

variable {c pretty : Json.Codec} {s : Services κ} {id : Bytes}

/-- A message with an id in it is sent just if the id is UTF-8. -/
theorem answersNotFound_send_iff
    (hc : c.Spec) {front back : Bytes} (hfront : Utf8.Valid front)
    (hback : ∀ b ∈ back, b.toNat < 0x80) :
  AnswersNotFound c s id (send c s (.notFound (front ++ id ++ back))) ↔ Utf8.Valid id
  := by
  have hmessage : Utf8.Valid (front ++ id ++ back) ↔ Utf8.Valid id := by
    rw [Utf8.valid_append_ascii hback, hfront.append_iff]
  constructor
  · rintro ⟨-, body, -, -, hbody, -⟩
    obtain ⟨text, htext, -⟩ := Option.map_eq_some_iff.mp hbody
    rw [← hmessage]
    apply Result.valid_toJson.mp (hc.valid_of_dump htext)
  · intro hid
    have hvalid : (Result.notFound (front ++ id ++ back)).toJson.Valid :=
      Result.valid_toJson.mpr (hmessage.mpr hid)
    obtain ⟨text, htext⟩ := hc.exists_dump hvalid
    use rfl, text, (Result.notFound (front ++ id ++ back)).toJson, front ++ id ++ back
    use by rw [send, htext]; rfl
    use hc.parse_dump _ _ (Result.proper_toJson _) htext
    use rfl
    apply List.infix_append front id back

theorem answersNotFound_device_iff (hc : c.Spec) :
  AnswersNotFound c s id (send c s (NexusMainframe.DeviceService.notFound id)) ↔ Utf8.Valid id
  := by
  apply answersNotFound_send_iff hc (by decide +kernel)
  apply Bytes.ofAscii_lt (by decide)

theorem answersNotFound_room_iff (hc : c.Spec) :
  AnswersNotFound c s id (send c s (NexusMainframe.RoomService.notFound id)) ↔ Utf8.Valid id
  := by
  apply answersNotFound_send_iff hc (by decide +kernel)
  apply Bytes.ofAscii_lt (by decide)

/-- For an id that is not known the handlers answer that it is not found just if it is UTF-8. -/
theorem answersNotFound_iff (hc : c.Spec) (m : Moment) (s : Services κ) (id : Bytes) :
  (id ∉ s.memory.devices →
      (AnswersNotFound c s id (DeviceController.show' c s id) ↔ Utf8.Valid id)
      ∧ (AnswersNotFound c s id (DeviceController.destroy c pretty m s id) ↔ Utf8.Valid id))
    ∧ (id ∉ s.memory.rooms →
      (AnswersNotFound c s id (RoomController.show' c s id) ↔ Utf8.Valid id)
      ∧ (AnswersNotFound c s id (RoomController.destroy c pretty m s id) ↔ Utf8.Valid id))
  := by
  constructor
  · intro hnot
    have hid := Finmap.lookup_eq_none.mpr hnot
    constructor
    · rw [DeviceController.show', Registry.get, hid]
      apply answersNotFound_device_iff hc
    · rw [DeviceController.destroy, DeviceService.remove, DeviceRegistry.exists',
        Registry.exists'_eq, hid]
      apply answersNotFound_device_iff hc
  · intro hnot
    have hid := Finmap.lookup_eq_none.mpr hnot
    constructor
    · rw [RoomController.show', Registry.get, hid]
      apply answersNotFound_room_iff hc
    · rw [RoomController.destroy, RoomService.remove, RoomRegistry.exists',
        Registry.exists'_eq, hid]
      apply answersNotFound_room_iff hc

end

/-- The services with one lamp. -/
def withLamp : Services Unit :=
  Services.init.setDevices (Finmap.insert (Bytes.ofAscii "lamp")
    (NexusMainframe.DeviceService.device (Bytes.ofAscii "lamp") (Bytes.ofAscii "Lamp")
      (Bytes.ofAscii "light")) ∅)

/-- There is no other device, and no room that is called like the lamp. -/
theorem answersNotFound_iff_withLamp :
  AnswersNotFound (JsonText.codec 2) withLamp (Bytes.ofAscii "fan")
      (DeviceController.show' (JsonText.codec 2) withLamp (Bytes.ofAscii "fan"))
    ∧ AnswersNotFound (JsonText.codec 2) withLamp (Bytes.ofAscii "fan")
      (DeviceController.destroy (JsonText.codec 2) (JsonText.codec 2) Moment.newYear withLamp
        (Bytes.ofAscii "fan"))
    ∧ AnswersNotFound (JsonText.codec 2) withLamp (Bytes.ofAscii "lamp")
      (RoomController.show' (JsonText.codec 2) withLamp (Bytes.ofAscii "lamp"))
    ∧ AnswersNotFound (JsonText.codec 2) withLamp (Bytes.ofAscii "lamp")
      (RoomController.destroy (JsonText.codec 2) (JsonText.codec 2) Moment.newYear withLamp
        (Bytes.ofAscii "lamp"))
  := by
  obtain ⟨hfan, -⟩ := @answersNotFound_iff Unit (JsonText.codec 2) (JsonText.codec 2)
    (JsonText.codec_spec 2) Moment.newYear withLamp (Bytes.ofAscii "fan")
  obtain ⟨-, hlamp⟩ := @answersNotFound_iff Unit (JsonText.codec 2) (JsonText.codec 2)
    (JsonText.codec_spec 2) Moment.newYear withLamp (Bytes.ofAscii "lamp")
  obtain ⟨hshow, hdestroy⟩ := hfan (by decide +kernel)
  obtain ⟨hshow', hdestroy'⟩ := hlamp Finmap.notMem_empty
  exact ⟨hshow.mpr (by decide), hdestroy.mpr (by decide), hshow'.mpr (by decide),
    hdestroy'.mpr (by decide)⟩

/-- The id of one byte that is not UTF-8 is not answered for. -/
theorem not_answersNotFound :
  ¬ ∀ (c pretty : Json.Codec), c.Spec → ∀ (m : Moment) (s : Services Unit) (id : Bytes),
      id ≠ [] → 0x2F ∉ id → id ∉ s.memory.devices → id ∉ s.memory.rooms →
        AnswersNotFound c s id (DeviceController.show' c s id)
          ∧ AnswersNotFound c s id (DeviceController.destroy c pretty m s id)
          ∧ AnswersNotFound c s id (RoomController.show' c s id)
          ∧ AnswersNotFound c s id (RoomController.destroy c pretty m s id)
  := by
  intro h
  have hsent : AnswersNotFound (JsonText.codec 2) (Services.init : Services Unit) [0xFF]
      (send (JsonText.codec 2) Services.init (NexusMainframe.DeviceService.notFound [0xFF])) :=
    (h (JsonText.codec 2) (JsonText.codec 2) (JsonText.codec_spec 2) Moment.newYear Services.init
      [0xFF] (by decide) (by decide) Finmap.notMem_empty Finmap.notMem_empty).1
  have hvalid := (answersNotFound_device_iff (JsonText.codec_spec 2)).mp hsent
  apply Utf8.not_valid_of_mem (List.mem_singleton_self _) hvalid

end Http

end NexusMainframe
