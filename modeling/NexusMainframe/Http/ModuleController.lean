import NexusMainframe.Http.ConfigController
import NexusMainframe.Http.RoomController
import NexusMainframe.Modules.ModuleRestart

/-!
# The module and the configuration controller

What the handlers of all routes work on, and those of the routes of modules and of the
configuration. A module that is loaded or unloaded is announced on the event bus, before the state
store is saved. What a module does when it is started or shut down is left out.
-/

namespace NexusMainframe

namespace ModuleResult

/-- `ModuleResult::alreadyLoaded`. -/
def alreadyLoaded (name : Bytes) : Result :=
  ⟨409, Bytes.ofAscii "Module '" ++ name ++ Bytes.ofAscii "' is already loaded"⟩

/-- `ModuleResult::notLoaded`. -/
def notLoaded (name : Bytes) : Result :=
  ⟨409, Bytes.ofAscii "Module '" ++ name ++ Bytes.ofAscii "' is not loaded"⟩

end ModuleResult

namespace Http

/-- The parser with the serialiser without an indentation, with one of two and with one of four;
the conversion of a number to an integer, the module libraries, and the matcher of the HTTP
library: it gives the values of the placeholders of a pattern that a path matches. -/
structure Env (φ : Type) where
  codec : Json.Codec
  pretty : Json.Codec
  wide : Json.Codec
  truncate : UInt64 → Int32
  libs : Libraries φ
  pathMatch : Bytes → Bytes → Option (List (Bytes × Bytes))

/-- What the codecs are assumed to do. -/
structure Env.Spec {φ : Type} (env : Env φ) : Prop where
  codec : env.codec.Spec
  pretty : env.pretty.Spec
  wide : env.wide.Spec

/-- What the routes work on. -/
structure Api (κ φ : Type) where
  services : Services κ
  modules : ModuleManager φ
  config : ConfigController

variable {κ φ : Type}

namespace Api

/-- The API with other modules. -/
def setModules (s : Api κ φ) (modules : ModuleManager φ) : Api κ φ :=
  { s with modules }

/-- The API after an event was published. -/
def publish (s : Api κ φ) (event : Event EventData) : Api κ φ :=
  { s with services := s.services.publish event }

end Api

/-! ### The module service -/

namespace ModuleService

/-- The event of a module that is enabled. -/
def enableEvent (m : Module φ) : Event EventData :=
  ⟨Bytes.ofAscii "event:enable", .string m.name⟩

/-- The event of a module that is disabled. -/
def disableEvent (name : Bytes) : Event EventData :=
  ⟨Bytes.ofAscii "event:disable", .string name⟩

/-- A turn of the loop of `ModuleManager::loadFromState`. -/
def restore (libs : Libraries φ) (s : Api κ φ) (name : Bytes) : Api κ φ :=
  if ModuleManager.isLoaded s.modules.loaded name then s
  else
    match libs.load name with
    | none => s
    | some m =>
        (s.setModules { s.modules with loaded := s.modules.loaded ++ [m] }).publish (enableEvent m)

/-- `start`, with a new manager. -/
def start (env : Env φ) (s : Api κ φ) : Api κ φ :=
  let manager := ModuleManager.restart env.wide.parse s.modules
  manager.names.foldl (restore env.libs) (s.setModules manager)

/-- The names of the loaded modules, and the names that they were loaded by. -/
def list (s : Api κ φ) : List (Bytes × Bytes) :=
  s.modules.loaded.map fun m => (m.name, m.path)

/-- The result for a name that no module can be loaded by. -/
def loadFailed (name : Bytes) : Result :=
  .notFound (Bytes.ofAscii "Failed to load module '" ++ name ++ Bytes.ofAscii "'")

/-- `enable`: the event is published before the state store is saved, which may throw. -/
def enable (env : Env φ) (s : Api κ φ) (name : Bytes) : Api κ φ × Option Result :=
  if ModuleManager.isLoaded s.modules.loaded name then (s, some (ModuleResult.alreadyLoaded name))
  else
    match env.libs.load name with
    | none => (s, some (loadFailed name))
    | some m =>
        let s := s.publish (enableEvent m)
        match s.modules.load env.libs env.wide.dump name with
        | (modules, .threw) => (s.setModules modules, none)
        | (modules, .returned done) =>
            (s.setModules modules,
              some (if done then .ok (Bytes.ofAscii "Module '" ++ name
                  ++ Bytes.ofAscii "' enabled")
                else loadFailed name))

/-- `disable`, in the same order. -/
def disable (env : Env φ) (s : Api κ φ) (name : Bytes) : Api κ φ × Option Result :=
  if ModuleManager.isLoaded s.modules.loaded name then
    let s := s.publish (disableEvent name)
    match s.modules.unload env.wide.dump name with
    | (modules, .threw) => (s.setModules modules, none)
    | (modules, .returned done) =>
        (s.setModules modules,
          some (if done then .ok (Bytes.ofAscii "Module '" ++ name ++ Bytes.ofAscii "' disabled")
            else .failed (Bytes.ofAscii "Failed to disable module '" ++ name
              ++ Bytes.ofAscii "'")))
  else (s, some (ModuleResult.notLoaded name))

end ModuleService

/-! ### The handlers -/

/-- The response of a result, unless its message cannot be serialised. -/
def answer (c : Json.Codec) (result : Result) : Option Response :=
  (c.dump result.toJson).map fun body => ⟨result.httpStatus, body⟩

namespace ModuleController

/-- A line in the log, and what comes behind it. -/
def logInfo (env : Env φ) (m : Moment) (s : Api κ φ) (message : Bytes)
    (next : Api κ φ → Api κ φ × Option Result) : Api κ φ × Option Response :=
  match s.services.log.emit env.codec.dump m.now (Bytes.ofAscii "info")
    (Bytes.ofAscii "ModuleController") message with
  | none => (s, none)
  | some (log, _) =>
      let out := next { s with services := { s.services with log } }
      (out.1, out.2.bind (answer env.codec))

/-- The value of a loaded module. -/
def moduleJson (m : Bytes × Bytes) : Json :=
  .object [(Bytes.ofAscii "name", .string m.1), (Bytes.ofAscii "path", .string m.2)]

/-- `GET /api/modules`. -/
def index (env : Env φ) (s : Api κ φ) : Api κ φ × Option Response :=
  (s, (env.codec.dump (.array ((ModuleService.list s).map moduleJson))).map fun body =>
    ⟨200, body⟩)

/-- `POST /api/modules/:name/enable`. -/
def enable (env : Env φ) (m : Moment) (s : Api κ φ) (name : Bytes) : Api κ φ × Option Response :=
  logInfo env m s (Bytes.ofAscii "Enable request for module '" ++ name ++ Bytes.ofAscii "'")
    fun s => ModuleService.enable env s name

/-- `POST /api/modules/:name/disable`. -/
def disable (env : Env φ) (m : Moment) (s : Api κ φ) (name : Bytes) : Api κ φ × Option Response :=
  logInfo env m s (Bytes.ofAscii "Disable request for module '" ++ name ++ Bytes.ofAscii "'")
    fun s => ModuleService.disable env s name

end ModuleController

namespace ConfigController

/-- `GET /api/config`. -/
def show' (env : Env φ) (s : Api κ φ) : Api κ φ × Option Response :=
  (s, (env.pretty.dump s.config.config.toJson).map fun body => ⟨200, body⟩)

/-- `update`, with the text of its response: that of a result for a body that is not JSON. -/
def update (env : Env φ) (s : Api κ φ) (raw : Bytes) : Api κ φ × Option Response :=
  let out := NexusMainframe.ConfigController.update env.pretty env.truncate s.config raw
  let dump := if env.pretty.parse raw = none then env.codec.dump else env.pretty.dump
  ({ s with config := out.1 }, out.2.bind fun r => (dump r.2).map fun body => ⟨r.1, body⟩)

end ConfigController

/-! ### What the module service does -/

section

variable {env : Env φ} {s : Api κ φ} {name : Bytes}

/-- A module that can be loaded is loaded, unless the state store cannot be saved. -/
theorem ModuleService.modules_enable (env : Env φ) (s : Api κ φ) (name : Bytes) :
  (enable env s name).1.modules = (s.modules.load env.libs env.wide.dump name).1
  := by
  unfold enable
  split
  next h => simp [ModuleManager.load, h]
  next h =>
    split
    next hnone => simp [ModuleManager.load, h, hnone]
    next m _ =>
      dsimp only
      split
      next modules hload => exact (congrArg Prod.fst hload).symm
      next modules _ hload => exact (congrArg Prod.fst hload).symm

theorem ModuleService.modules_disable (env : Env φ) (s : Api κ φ) (name : Bytes) :
  (disable env s name).1.modules = (s.modules.unload env.wide.dump name).1
  := by
  unfold disable
  split
  next =>
    dsimp only
    split
    next modules hunload => exact (congrArg Prod.fst hunload).symm
    next modules _ hunload => exact (congrArg Prod.fst hunload).symm
  next h => simp [ModuleManager.unload, h]

/-- The modules that are restored are those that `loadFromState` loads. -/
theorem ModuleService.modules_foldl_restore (libs : Libraries φ) (s : Api κ φ)
    (names : List Bytes) :
  (names.foldl (restore libs) s).modules
    = { s.modules with
        loaded := names.foldl (ModuleManager.restore libs) s.modules.loaded }
  := by
  induction names generalizing s with
  | nil => rfl
  | cons name names ih =>
      rw [List.foldl_cons, List.foldl_cons, ih]
      unfold restore ModuleManager.restore
      split
      next => rfl
      next => cases libs.load name <;> rfl

theorem ModuleService.modules_start (env : Env φ) (s : Api κ φ) :
  (start env s).modules
    = (ModuleManager.restart env.wide.parse s.modules).loadFromState env.libs
  := modules_foldl_restore env.libs _ _

end

end Http

end NexusMainframe
