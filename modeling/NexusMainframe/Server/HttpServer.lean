import NexusMainframe.Server.Endpoint

/-!
# The routes of the HTTP server

A controller registers the entries of its route table as endpoints, without parameters. The
server puts its own routes in front of these when it starts.
-/

namespace NexusMainframe

/-- An entry of a route table; its handler is a bound method, never null. -/
structure RouteEntry where
  method : HttpMethod
  path : Bytes
  name : Bytes
  description : Bytes := []
deriving DecidableEq

/-- The server with its endpoints in the order in which requests are matched. -/
structure HttpServer where
  running : Bool := false
  routes : List Endpoint := []
deriving DecidableEq

namespace HttpServer

/-- `addRoute`. -/
def addRoute (server : HttpServer) (ep : Endpoint) : HttpServer :=
  { server with routes := server.routes ++ [ep] }

/-- The endpoint that `IController::registerRoutes` makes of an entry. -/
def endpoint (entry : RouteEntry) : Option Endpoint :=
  (Endpoint.create entry.path entry.name entry.method).map fun ep =>
    if entry.description = [] then ep else ep.describe entry.description

/-- `IController::registerRoutes`: whether it returns, and the server. -/
def registerRoutes (server : HttpServer) : List RouteEntry → Bool × HttpServer
  | [] => (true, server)
  | entry :: table =>
      match endpoint entry with
      | none => (false, server)
      | some ep => registerRoutes (server.addRoute ep) table

/-- `use`, on a controller with the given route table. -/
def use (server : HttpServer) (routeTable : List RouteEntry) : Bool × HttpServer :=
  registerRoutes server routeTable

/-- The routes of the server itself. -/
def builtins : List Endpoint :=
  [{ path := Bytes.ofAscii "/api/status", name := Bytes.ofAscii "status", method := .get,
     description := Bytes.ofAscii "Check whether the server is running" },
   { path := Bytes.ofAscii "/api/health", name := Bytes.ofAscii "health", method := .get,
     description :=
      Bytes.ofAscii "Return uptime, MQTT connection status and number of loaded modules" },
   { path := Bytes.ofAscii "/api/metrics", name := Bytes.ofAscii "metrics", method := .get,
     description := Bytes.ofAscii
      "Return detailed runtime metrics including memory usage and endpoint count" }]

/-- `start` puts the built-in routes in front, each time that it starts. -/
def start (server : HttpServer) : HttpServer :=
  if server.running then server
  else { server with running := true, routes := builtins ++ server.routes }

/-- `stop` leaves the routes. -/
def stop (server : HttpServer) : HttpServer :=
  { server with running := false }

end HttpServer

/-- `DeviceController::routeTable`. -/
def DeviceController.routeTable : List RouteEntry :=
  [⟨.get, Bytes.ofAscii "/api/devices", Bytes.ofAscii "device_list",
      Bytes.ofAscii "List all registered devices"⟩,
    ⟨.post, Bytes.ofAscii "/api/devices", Bytes.ofAscii "device_create",
      Bytes.ofAscii "Register a new device"⟩,
    ⟨.get, Bytes.ofAscii "/api/devices/:id", Bytes.ofAscii "device_show",
      Bytes.ofAscii "Get a single device by id"⟩,
    ⟨.delete, Bytes.ofAscii "/api/devices/:id", Bytes.ofAscii "device_destroy",
      Bytes.ofAscii "Delete a device by id"⟩,
    ⟨.post, Bytes.ofAscii "/api/devices/:id/command", Bytes.ofAscii "device_command",
      Bytes.ofAscii "Send a command to a device"⟩]

namespace HttpService

/-- The calls of `use` in `HttpService::start`, one for each controller. -/
def useAll (server : HttpServer) : List (List RouteEntry) → Bool × HttpServer
  | [] => (true, server)
  | table :: tables =>
      match server.use table with
      | (true, server) => useAll server tables
      | (false, server) => (false, server)

/-- `HttpService::start` with controllers that have the given route tables, if it returns. -/
def start (tables : List (List RouteEntry)) : Option HttpServer :=
  match useAll {} tables with
  | (true, server) => some server.start
  | (false, _) => none

end HttpService

namespace HttpServer

theorem params_of_endpoint
    {entry : RouteEntry} {ep : Endpoint} (h : endpoint entry = some ep) :
  ep.params = []
  := by
  obtain ⟨made, hmade, rfl⟩ := Option.map_eq_some_iff.mp h
  unfold Endpoint.create at hmade
  split at hmade
  next => cases hmade
  next =>
    cases hmade
    split <;> rfl

theorem params_of_registerRoutes
    {server : HttpServer} (h : ∀ ep ∈ server.routes, ep.params = []) (table : List RouteEntry) :
  ∀ ep ∈ (registerRoutes server table).2.routes, ep.params = []
  := by
  induction table generalizing server with
  | nil => apply h
  | cons entry table ih =>
      rw [registerRoutes]
      cases hentry : endpoint entry with
      | none => apply h
      | some ep =>
          apply ih
          intro ep' hep'
          rcases List.mem_append.mp hep' with hold | hnew
          · apply h ep' hold
          · rw [List.mem_singleton.mp hnew]
            apply params_of_endpoint hentry

/-- No route of a server that was started with some controllers has parameters. -/
theorem params_of_start
    {tables : List (List RouteEntry)} {server : HttpServer}
    (h : HttpService.start tables = some server) :
  ∀ ep ∈ server.routes, ep.params = []
  := by
  have huse : ∀ (tables : List (List RouteEntry)) (server : HttpServer),
      (∀ ep ∈ server.routes, ep.params = []) →
        ∀ ep ∈ (HttpService.useAll server tables).2.routes, ep.params = [] := by
    intro tables
    induction tables with
    | nil =>
        intro server hserver
        apply hserver
    | cons table tables ih =>
        intro server hserver
        have htable := params_of_registerRoutes hserver table
        rw [HttpService.useAll]
        split
        next server' hregister =>
          apply ih
          rw [use] at hregister
          rw [hregister] at htable
          apply htable
        next server' hregister =>
          rw [use] at hregister
          rw [hregister] at htable
          apply htable
  have hall := huse tables {} (by simp)
  unfold HttpService.start at h
  split at h
  next used hused =>
    rw [hused] at hall
    cases h
    intro ep hep
    unfold start at hep
    split at hep
    next => apply hall ep hep
    next =>
      rcases List.mem_append.mp hep with hbuiltin | hep
      · simp only [builtins, List.mem_cons, List.not_mem_nil, or_false] at hbuiltin
        rcases hbuiltin with rfl | rfl | rfl <;> rfl
      · apply hall ep hep
  next => cases h

end HttpServer

end NexusMainframe
