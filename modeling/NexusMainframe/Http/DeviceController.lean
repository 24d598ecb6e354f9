import NexusMainframe.Http.Services

/-!
# The device controller

The handlers of the device routes. A handler that throws sends no response of its own.
-/

namespace NexusMainframe

namespace Http

variable {κ : Type}

/-- The result for a body that is not JSON. -/
def invalidBody : Result :=
  .badRequest (Bytes.ofAscii "Invalid JSON body")

namespace DeviceController

/-- The result for a command without its field. -/
def commandRequired : Result :=
  .badRequest (Bytes.ofAscii "Field 'command' is required")

/-- `GET /api/devices`. -/
def index (c : Json.Codec) (m : Moment) (s : Services κ) : Services κ × Option Response :=
  sendJson c s (.array ((m.devices.list s.memory.devices).map Device.toJson))

/-- `POST /api/devices`; a name or a type that is no string makes it throw. -/
def create (c pretty : Json.Codec) (m : Moment) (s : Services κ) (raw : Bytes) :
    Services κ × Option Response :=
  match c.parse raw with
  | none => send c s invalidBody
  | some body =>
      match body.valueAs Json.asString (Bytes.ofAscii "name") [],
        body.valueAs Json.asString (Bytes.ofAscii "type") [] with
      | some name, some type => sendResult c (DeviceService.add pretty m s name type)
      | _, _ => (s, none)

/-- `GET /api/devices/:id`. -/
def show' (c : Json.Codec) (s : Services κ) (id : Bytes) : Services κ × Option Response :=
  match Registry.get s.memory.devices id with
  | none => send c s (NexusMainframe.DeviceService.notFound id)
  | some d => sendJson c s d.toJson

/-- `DELETE /api/devices/:id`. -/
def destroy (c pretty : Json.Codec) (m : Moment) (s : Services κ) (id : Bytes) :
    Services κ × Option Response :=
  sendResult c (DeviceService.remove pretty m s id)

/-- The payload of a command, with the command as its member `_command`. -/
def commandPayload (body : Json) (command : Bytes) : Option Json :=
  match body.valueAs some (Bytes.ofAscii "payload") (.object []) with
  | some (.object members) =>
      some (.object (Json.setMember (Bytes.ofAscii "_command") (.string command) members))
  | some .null => some (.object [(Bytes.ofAscii "_command", .string command)])
  | _ => none

/-- `POST /api/devices/:id/command`; the line in the log comes before anything is done. -/
def command (c pretty : Json.Codec) (m : Moment) (s : Services κ) (id raw : Bytes) :
    Services κ × Option Response :=
  match c.parse raw with
  | none => send c s invalidBody
  | some body =>
      match body.member (Bytes.ofAscii "command") with
      | none => send c s commandRequired
      | some (.string command) =>
          let msg := Bytes.ofAscii "Command '" ++ command ++ Bytes.ofAscii "' for device '"
            ++ id ++ Bytes.ofAscii "'"
          match s.log.emit c.dump m.now (Bytes.ofAscii "info") (Bytes.ofAscii "DeviceController")
            msg with
          | none => (s, none)
          | some (log, _) =>
              match commandPayload body command with
              | none => ({ s with log := log }, none)
              | some payload =>
                  sendResult c
                    (DeviceService.command c pretty m { s with log := log } id payload)
      | some _ => (s, none)

end DeviceController

end Http

end NexusMainframe
