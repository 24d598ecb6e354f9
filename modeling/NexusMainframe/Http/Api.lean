import NexusMainframe.Http.ModuleController
import NexusMainframe.Http.Views
import NexusMainframe.Lib.PathPattern
import NexusMainframe.Server.HttpServer

/-!
# The whole API

The routes of all controllers, as `HttpService` puts them in and `bindRoutes` hands them to the
HTTP library, and the requests that they serve. The library looks for the first route with the
method of the request whose pattern its path matches. Where there is none it answers with the
status 404, and with 500 where the handler throws.
-/

namespace NexusMainframe

/-- `ModuleController::routeTable`. -/
def ModuleController.routeTable : List RouteEntry :=
  [⟨.get, Bytes.ofAscii "/api/modules", Bytes.ofAscii "modules_list",
      Bytes.ofAscii "List all currently loaded modules"⟩,
    ⟨.post, Bytes.ofAscii "/api/modules/:name/enable", Bytes.ofAscii "module_enable",
      Bytes.ofAscii "Load and initialise a module by name"⟩,
    ⟨.post, Bytes.ofAscii "/api/modules/:name/disable", Bytes.ofAscii "module_disable",
      Bytes.ofAscii "Shut down and unload a module by name"⟩]

/-- `RoomController::routeTable`. -/
def RoomController.routeTable : List RouteEntry :=
  [⟨.get, Bytes.ofAscii "/api/rooms", Bytes.ofAscii "room_list",
      Bytes.ofAscii "List all rooms"⟩,
    ⟨.post, Bytes.ofAscii "/api/rooms", Bytes.ofAscii "room_create",
      Bytes.ofAscii "Create a new room"⟩,
    ⟨.get, Bytes.ofAscii "/api/rooms/:id", Bytes.ofAscii "room_show",
      Bytes.ofAscii "Get a room with its devices expanded"⟩,
    ⟨.delete, Bytes.ofAscii "/api/rooms/:id", Bytes.ofAscii "room_destroy",
      Bytes.ofAscii "Delete a room by id"⟩,
    ⟨.post, Bytes.ofAscii "/api/rooms/:id/devices/:deviceId", Bytes.ofAscii "room_add_device",
      Bytes.ofAscii "Add a device to a room"⟩,
    ⟨.delete, Bytes.ofAscii "/api/rooms/:id/devices/:deviceId",
      Bytes.ofAscii "room_remove_device", Bytes.ofAscii "Remove a device from a room"⟩]

/-- `ConfigController::routeTable`. -/
def ConfigController.routeTable : List RouteEntry :=
  [⟨.get, Bytes.ofAscii "/api/config", Bytes.ofAscii "config_show",
      Bytes.ofAscii "Return current configuration"⟩,
    ⟨.patch, Bytes.ofAscii "/api/config", Bytes.ofAscii "config_update",
      Bytes.ofAscii "Update configuration and save to disk"⟩]

namespace HttpServer

/-- What the built-in routes report: the time since the start in seconds, whether the MQTT client
is connected, and the memory in use. -/
structure Readings where
  uptimeSeconds : Nat
  mqttConnected : Bool
  vmRss : Int

/-- The text of a flag. -/
def flag (b : Bool) : Bytes :=
  if b then Bytes.ofAscii "true" else Bytes.ofAscii "false"

/-- `HttpServer::toJson`. -/
def toJson (success : Bool) (output : Bytes) : Bytes :=
  Bytes.ofAscii "\x7b\"success\": " ++ flag success ++ Bytes.ofAscii ",\"output\": \"" ++ output
    ++ Bytes.ofAscii "\"\x7d"

/-- The text of `/api/health`. -/
def health (r : Readings) (modules : Nat) : Bytes :=
  Bytes.ofAscii "\x7b\"status\":\"ok\",\"uptime_seconds\":" ++ Bytes.decimal r.uptimeSeconds
    ++ Bytes.ofAscii ",\"uptime_human\":\"" ++ Bytes.decimal (r.uptimeSeconds / 3600)
    ++ Bytes.ofAscii "h " ++ Bytes.decimal (r.uptimeSeconds % 3600 / 60)
    ++ Bytes.ofAscii "m " ++ Bytes.decimal (r.uptimeSeconds % 60)
    ++ Bytes.ofAscii "s\",\"mqtt_connected\":" ++ flag r.mqttConnected
    ++ Bytes.ofAscii ",\"modules_loaded\":" ++ Bytes.decimal modules ++ Bytes.ofAscii "\x7d"

/-- The text of `/api/metrics`. -/
def metrics (r : Readings) (modules endpoints : Nat) : Bytes :=
  Bytes.ofAscii "\x7b\"uptime_seconds\":" ++ Bytes.decimal r.uptimeSeconds
    ++ Bytes.ofAscii ",\"mqtt_connected\":" ++ flag r.mqttConnected
    ++ Bytes.ofAscii ",\"modules_loaded\":" ++ Bytes.decimal modules
    ++ Bytes.ofAscii ",\"memory_rss_kb\":" ++ JsonText.printInteger r.vmRss
    ++ Bytes.ofAscii ",\"endpoints_registered\":" ++ Bytes.decimal endpoints
    ++ Bytes.ofAscii "\x7d"

end HttpServer

namespace Http

open PathPattern (Clean)

/-- The handlers of the routes. -/
inductive Handler where
  | status
  | health
  | metrics
  | moduleIndex
  | moduleEnable
  | moduleDisable
  | deviceIndex
  | deviceCreate
  | deviceShow
  | deviceDestroy
  | deviceCommand
  | roomIndex
  | roomCreate
  | roomShow
  | roomDestroy
  | roomAddDevice
  | roomRemoveDevice
  | configShow
  | configUpdate
deriving DecidableEq

/-- The route tables of the controllers, in the order in which `HttpService` puts them in. -/
def tables : List (List RouteEntry) :=
  [ModuleController.routeTable, DeviceController.routeTable, RoomController.routeTable,
    ConfigController.routeTable]

/-- The running server. -/
def server : HttpServer where
  running := true
  routes := HttpServer.builtins ++ tables.flatMap (List.filterMap HttpServer.endpoint)

/-- The routes with their handlers. -/
def routes : List (Endpoint × Handler) :=
  server.routes.zip
    [.status, .health, .metrics, .moduleIndex, .moduleEnable, .moduleDisable, .deviceIndex,
      .deviceCreate, .deviceShow, .deviceDestroy, .deviceCommand, .roomIndex, .roomCreate,
      .roomShow, .roomDestroy, .roomAddDevice, .roomRemoveDevice, .configShow, .configUpdate]

/-- Controllers whose entries have paths and names are all put in. -/
theorem start_of_named
    {tables : List (List RouteEntry)}
    (h : ∀ table ∈ tables, ∀ entry ∈ table, entry.path ≠ [] ∧ entry.name ≠ []) :
  HttpService.start tables
    = some ⟨true, HttpServer.builtins ++ tables.flatMap (List.filterMap HttpServer.endpoint)⟩
  := by
  have hregister : ∀ (table : List RouteEntry) (server : HttpServer),
      (∀ entry ∈ table, entry.path ≠ [] ∧ entry.name ≠ []) →
        HttpServer.registerRoutes server table
          = (true, { server with
              routes := server.routes ++ table.filterMap HttpServer.endpoint }) := by
    intro table
    induction table with
    | nil => simp [HttpServer.registerRoutes]
    | cons entry table ih =>
        intro server hentries
        obtain ⟨hentry, htable⟩ := List.forall_mem_cons.mp hentries
        obtain ⟨ep, hep⟩ : ∃ ep, HttpServer.endpoint entry = some ep := by
          simp [HttpServer.endpoint, Endpoint.create, hentry]
        rw [HttpServer.registerRoutes, hep, List.filterMap_cons_some hep]
        dsimp only
        rw [ih _ htable, HttpServer.addRoute]
        simp
  have huse : ∀ (server : HttpServer),
      HttpService.useAll server tables
        = (true, { server with
            routes := server.routes ++ tables.flatMap (List.filterMap HttpServer.endpoint) }) := by
    induction tables with
    | nil => simp [HttpService.useAll]
    | cons table tables ih =>
        intro server
        obtain ⟨htable, htables⟩ := List.forall_mem_cons.mp h
        rw [HttpService.useAll, HttpServer.use, hregister table server htable]
        dsimp only
        rw [ih htables]
        simp
  rw [HttpService.start, huse]
  rfl

/-- `HttpService::start`, with its controllers. -/
theorem start_tables :
  HttpService.start tables = some server
  := start_of_named (by decide)

/-- A request as the library has read it: its path is decoded. The logger of the server throws on
a path that is not UTF-8, behind the handler; such requests are left out. -/
structure RestRequest where
  method : HttpMethod
  path : Bytes
  body : Bytes
  utf8 : Utf8.Valid path

variable {κ φ : Type}

/-- The first route that the library finds, and the values of its placeholders. -/
def route (pathMatch : Bytes → Bytes → Option (List (Bytes × Bytes))) (method : HttpMethod)
    (path : Bytes) : Option (Handler × List (Bytes × Bytes)) :=
  routes.findSome? fun r =>
    if r.1.method = method then (pathMatch r.1.path path).map (r.2, ·) else none

/-- The services and the response of one of their handlers. -/
def served (env : Env φ) (m : Moment) (s : Api κ φ) (q : HttpRequest) :
    Api κ φ × Option Response :=
  let out := handle env.codec env.pretty m s.services q
  ({ s with services := out.1 }, out.2)

/-- A parameter of a path, unless there is none, and what comes of it. -/
def withParam (s : Api κ φ) (params : List (Bytes × Bytes)) (name : String)
    (next : Bytes → Api κ φ × Option Response) : Api κ φ × Option Response :=
  match params.lookup (Bytes.ofAscii name) with
  | none => (s, none)
  | some value => next value

/-- What holds where there is no parameter, and of what comes of each value, holds afterwards. -/
theorem withParam_induction
    {P : Api κ φ → Prop} {s : Api κ φ} {params : List (Bytes × Bytes)} {name : String}
    {next : Bytes → Api κ φ × Option Response} (h : P s)
    (hnext : ∀ value, params.lookup (Bytes.ofAscii name) = some value → P (next value).1) :
  P (withParam s params name next).1
  := by
  unfold withParam
  split
  next => exact h
  next value hvalue => exact hnext value hvalue

/-- The parameters of the path that a handler reads. -/
def Handler.params : Handler → List String
  | .moduleEnable | .moduleDisable => ["name"]
  | .deviceShow | .deviceDestroy | .deviceCommand | .roomShow | .roomDestroy => ["id"]
  | .roomAddDevice | .roomRemoveDevice => ["id", "deviceId"]
  | _ => []

/-- A handler, with the parameters of the path and the body. -/
def Handler.run (env : Env φ) (r : HttpServer.Readings) (m : Moment) (s : Api κ φ)
    (params : List (Bytes × Bytes)) (body : Bytes) : Handler → Api κ φ × Option Response
  | .status => (s, some ⟨200, HttpServer.toJson true (Bytes.ofAscii "OK")⟩)
  | .health => (s, some ⟨200, HttpServer.health r s.modules.loaded.length⟩)
  | .metrics => (s, some ⟨200, HttpServer.metrics r s.modules.loaded.length routes.length⟩)
  | .moduleIndex => ModuleController.index env s
  | .moduleEnable => withParam s params "name" fun name => ModuleController.enable env m s name
  | .moduleDisable => withParam s params "name" fun name => ModuleController.disable env m s name
  | .deviceIndex => served env m s .deviceIndex
  | .deviceCreate => served env m s (.deviceCreate body)
  | .deviceShow => withParam s params "id" fun id => served env m s (.deviceShow id)
  | .deviceDestroy => withParam s params "id" fun id => served env m s (.deviceDestroy id)
  | .deviceCommand => withParam s params "id" fun id => served env m s (.deviceCommand id body)
  | .roomIndex => served env m s .roomIndex
  | .roomCreate => served env m s (.roomCreate body)
  | .roomShow => withParam s params "id" fun id => served env m s (.roomShow id)
  | .roomDestroy => withParam s params "id" fun id => served env m s (.roomDestroy id)
  | .roomAddDevice =>
      withParam s params "id" fun id => withParam s params "deviceId" fun deviceId =>
        served env m s (.roomAddDevice id deviceId)
  | .roomRemoveDevice =>
      withParam s params "id" fun id => withParam s params "deviceId" fun deviceId =>
        served env m s (.roomRemoveDevice id deviceId)
  | .configShow => ConfigController.show' env s
  | .configUpdate => ConfigController.update env s body

/-- What is done for a request, and the response; `OPTIONS` is answered before any route. -/
def perform (env : Env φ) (r : HttpServer.Readings) (m : Moment) (s : Api κ φ) (q : RestRequest) :
    Api κ φ × Response :=
  if q.method = .options then (s, ⟨204, []⟩)
  else
    match route env.pathMatch q.method q.path with
    | none => (s, ⟨404, []⟩)
    | some (handler, params) =>
        let out := handler.run env r m s params q.body
        (out.1, out.2.getD ⟨500, []⟩)

/-- The logger of the server, which comes behind every request. -/
def logResponse (env : Env φ) (m : Moment) (s : Api κ φ) (q : RestRequest) (response : Response) :
    Api κ φ :=
  match s.services.log.accessLog env.codec.dump m.now q.method.toString q.path response.status with
  | none => s
  | some (log, _) => { s with services := { s.services with log } }

/-- The server's response to a request. -/
def respond (env : Env φ) (r : HttpServer.Readings) (m : Moment) (s : Api κ φ) (q : RestRequest) :
    Api κ φ × Response :=
  let out := perform env r m s q
  (logResponse env m out.1 q out.2, out.2)

/-- The logger of the server writes into the log only. -/
theorem exists_logResponse
    (env : Env φ) (m : Moment) (s : Api κ φ) (q : RestRequest) (response : Response) :
  ∃ log, logResponse env m s q response = { s with services := { s.services with log } }
  := by
  unfold logResponse
  split
  next => exact ⟨s.services.log, rfl⟩
  next log _ _ => exact ⟨log, rfl⟩

/-- What holds of the state, of what the handler makes of it, and whatever the log, holds after the
request. -/
theorem respond_induction
    {P : Api κ φ → Prop} {env : Env φ} {r : HttpServer.Readings} {m : Moment} {s : Api κ φ}
    {q : RestRequest} (h : P s)
    (hlog : ∀ (t : Api κ φ) (log : LogBroadcaster), P t →
      P { t with services := { t.services with log } })
    (hrun : ∀ handler params, route env.pathMatch q.method q.path = some (handler, params) →
      P (handler.run env r m s params q.body).1) :
  P (respond env r m s q).1
  := by
  have hperform : P (perform env r m s q).1 := by
    unfold perform
    split
    next => exact h
    next =>
      split
      next => exact h
      next handler params hroute => exact hrun handler params hroute
  obtain ⟨log, hsame⟩ := exists_logResponse env m (perform env r m s q).1 q
    (perform env r m s q).2
  rw [respond]
  dsimp only
  rw [hsame]
  exact hlog _ log hperform

/-- A new process, after the program has ended: the services start in the order in which they are
built. -/
def restartApi (env : Env φ) (s : Api κ φ) (ending : Ending) : Option (Api κ φ) :=
  (restart env.pretty s.services ending).map fun services =>
    let config := NexusConfig.loadOrCreate env.pretty env.truncate s.config.file
    ModuleService.start env { s with services, config := ⟨config.1, config.2⟩ }

/-! ### Which route is found -/

section

variable {pathMatch : Bytes → Bytes → Option (List (Bytes × Bytes))}

/-- No path that is clean matches two routes with one method. -/
theorem pairwise_routes :
  routes.Pairwise fun r r' => r.1.method = r'.1.method →
    PathPattern.overlap (PathPattern.segments r.1.path) (PathPattern.segments r'.1.path) = false
  := by
  decide +kernel

/-- The route that is found is the one that the path fits, wherever it stands. -/
theorem route_eq_some_iff
    (hmatch : ∀ pattern path, Clean path → pathMatch pattern path = PathPattern.fit pattern path)
    {method : HttpMethod} {path : Bytes} (hclean : Clean path) {handler : Handler}
    {params : List (Bytes × Bytes)} :
  route pathMatch method path = some (handler, params)
    ↔ ∃ ep, (ep, handler) ∈ routes ∧ ep.method = method
      ∧ PathPattern.fit ep.path path = some params
  := by
  have hstep : ∀ r : Endpoint × Handler, ∀ out,
      (if r.1.method = method then (pathMatch r.1.path path).map (r.2, ·) else none) = some out
        ↔ r.1.method = method ∧ r.2 = out.1 ∧ PathPattern.fit r.1.path path = some out.2 := by
    intro r out
    rw [hmatch _ _ hclean, Option.ite_none_right_eq_some, Option.map_eq_some_iff]
    constructor
    · rintro ⟨hmethod, values, hvalues, rfl⟩
      exact ⟨hmethod, rfl, hvalues⟩
    · rintro ⟨hmethod, hhandler, hvalues⟩
      exact ⟨hmethod, out.2, hvalues, by rw [hhandler]⟩
  constructor
  · intro h
    obtain ⟨r, hr, hfound⟩ := List.exists_of_findSome?_eq_some h
    obtain ⟨hmethod, rfl, hvalues⟩ := (hstep r _).mp hfound
    exact ⟨r.1, hr, hmethod, hvalues⟩
  · rintro ⟨ep, hep, hmethod, hvalues⟩
    obtain ⟨before, after, hsplit⟩ := List.append_of_mem hep
    have hpairwise := pairwise_routes
    rw [hsplit, List.pairwise_append] at hpairwise
    have hnone : ∀ r ∈ before,
        (if r.1.method = method then (pathMatch r.1.path path).map (r.2, ·) else none) = none := by
      intro r hr
      rw [Option.eq_none_iff_forall_ne_some]
      intro out hout
      obtain ⟨hmethod', -, hvalues'⟩ := (hstep r out).mp hout
      have hoverlap := PathPattern.overlap_of_fitSegments hvalues' hvalues
      rw [hpairwise.2.2 r hr _ List.mem_cons_self (hmethod'.trans hmethod.symm)] at hoverlap
      cases hoverlap
    rw [route, hsplit, List.findSome?_append, List.findSome?_eq_none_iff.mpr hnone,
      Option.none_or, List.findSome?_cons_of_isSome]
    · exact (hstep (ep, handler) (handler, params)).mpr ⟨hmethod, rfl, hvalues⟩
    · rw [(hstep (ep, handler) (handler, params)).mpr ⟨hmethod, rfl, hvalues⟩]
      rfl

end

end Http

end NexusMainframe
