import NexusMainframe.Mcp.McpServer
import Mathlib.Data.List.Nodup

/-!
# Calls of tools

Every endpoint is a tool. The endpoints that controllers register have no parameters, so a
call hands the path of an endpoint to the client as it is, with the placeholders in it; and
only the methods GET, POST, PUT and PATCH are passed on. Where two endpoints have one name,
the first one is called.
-/

namespace NexusMainframe

namespace McpServer

/-! ### Placeholders -/

/-- The name of a segment of a path that is a placeholder. -/
def placeholder? : Bytes → Option Bytes
  | 0x3A :: name => if name = [] then none else some name
  | _ => none

/-- The segments of a path, between the slashes. -/
def segments (path : Bytes) : List Bytes :=
  path.splitOn 0x2F

/-- A string argument. -/
def stringArgument (args : Json) (name : Bytes) : Bytes :=
  ((args.member name).bind Json.asString).getD []

/-- A segment, with its argument in place of a placeholder. -/
def expandSegment (args : Json) (segment : Bytes) : Bytes :=
  match placeholder? segment with
  | none => segment
  | some name => stringArgument args name

/-- A path with every placeholder replaced by its argument. -/
def expand (args : Json) (path : Bytes) : Bytes :=
  [0x2F].intercalate ((segments path).map (expandSegment args))

/-- The unreserved characters of URLs. -/
def Unreserved (b : UInt8) : Prop :=
  (0x30 ≤ b.toNat ∧ b.toNat ≤ 0x39) ∨ (0x41 ≤ b.toNat ∧ b.toNat ≤ 0x5A)
    ∨ (0x61 ≤ b.toNat ∧ b.toNat ≤ 0x7A) ∨ b ∈ [0x2D, 0x2E, 0x5F, 0x7E]

instance decidableUnreserved : DecidablePred Unreserved :=
  fun _ => inferInstanceAs (Decidable (_ ∨ _ ∨ _ ∨ _))

/-- The arguments give each placeholder of a path a string of unreserved characters that is
not empty. -/
def Gives (args : Json) (path : Bytes) : Prop :=
  ∀ segment ∈ segments path, ∀ name, placeholder? segment = some name →
    ∃ s, args.member name = some (.string s) ∧ s ≠ [] ∧ ∀ b ∈ s, Unreserved b

theorem slash_not_mem_segment
    {path segment : Bytes} (h : segment ∈ segments path) :
  0x2F ∉ segment
  := by
  induction path generalizing segment with
  | nil =>
      rw [segments, List.splitOn_nil, List.mem_singleton] at h
      simp [h]
  | cons b path ih =>
      rw [segments, List.splitOn_cons_eq_if_modifyHead] at h
      split at h
      next =>
        rcases List.mem_cons.mp h with rfl | h
        · simp
        · apply ih h
      next hb =>
        cases hsplit : path.splitOn 0x2F with
        | nil => exact (List.splitOn_ne_nil _ _ hsplit).elim
        | cons first rest =>
            rw [hsplit, List.modifyHead_cons] at h
            rcases List.mem_cons.mp h with rfl | h
            · have hfirst : 0x2F ∉ first := by
                apply ih
                rw [segments, hsplit]
                apply List.mem_cons_self
              simp only [beq_iff_eq] at hb
              simp only [List.mem_cons, not_or]
              use fun heq => hb heq.symm
            · apply ih
              rw [segments, hsplit]
              apply List.mem_cons_of_mem first h

/-- The segments stay as they are just if each one does. -/
theorem map_expandSegment_eq_self_iff (args : Json) (path : Bytes) :
  (segments path).map (expandSegment args) = segments path
    ↔ ∀ segment ∈ segments path, expandSegment args segment = segment
  := by
  have h := List.map_inj_left (f := expandSegment args) (g := id) (l := segments path)
  rw [List.map_id] at h
  apply h

/-- A path without placeholders is its own expansion. -/
theorem expand_of_no_placeholder
    {path : Bytes} (h : ∀ segment ∈ segments path, placeholder? segment = none) (args : Json) :
  expand args path = path
  := by
  have hsame : (segments path).map (expandSegment args) = segments path := by
    rw [map_expandSegment_eq_self_iff]
    intro segment hsegment
    simp only [expandSegment, h segment hsegment]
  rw [expand, hsame, segments, List.intercalate_splitOn]

/-- What stands in place of a placeholder is no placeholder. -/
theorem expandSegment_of_placeholder
    {args : Json} {path segment name : Bytes} (h : Gives args path)
    (hsegment : segment ∈ segments path)
    (hname : placeholder? segment = some name) :
  0x2F ∉ expandSegment args segment ∧ expandSegment args segment ≠ segment
  := by
  obtain ⟨s, hs, hne, hunreserved⟩ := h segment hsegment name hname
  have hvalue : expandSegment args segment = s := by
    simp only [expandSegment, hname, stringArgument, hs, Option.bind_some, Json.asString,
      Option.getD_some]
  rw [hvalue]
  constructor
  · intro hslash
    have := hunreserved _ hslash
    simp [Unreserved] at this
  · rintro rfl
    have hcolon : 0x3A ∈ s := by
      unfold placeholder? at hname
      split at hname
      next => apply List.mem_cons_self
      next => cases hname
    have := hunreserved _ hcolon
    simp [Unreserved] at this

/-- A path is its own expansion just if it has no placeholders. -/
theorem expand_eq_self_iff
    {args : Json} {path : Bytes} (h : Gives args path) :
  expand args path = path ↔ ∀ segment ∈ segments path, placeholder? segment = none
  := by
  constructor
  · intro heq segment hsegment
    have hslash : ∀ l ∈ (segments path).map (expandSegment args), 0x2F ∉ l := by
      intro l hl
      obtain ⟨segment, hsegment, rfl⟩ := List.mem_map.mp hl
      cases hname : placeholder? segment with
      | none =>
          simp only [expandSegment, hname]
          apply slash_not_mem_segment hsegment
      | some name => apply (expandSegment_of_placeholder h hsegment hname).1
    have hsplit : segments (expand args path) = (segments path).map (expandSegment args) :=
      List.splitOn_intercalate _ hslash (by simp [segments, List.splitOn_ne_nil])
    rw [heq] at hsplit
    have hsame := (map_expandSegment_eq_self_iff args path).mp hsplit.symm
    cases hname : placeholder? segment with
    | none => rfl
    | some name =>
        exact ((expandSegment_of_placeholder h hsegment hname).2 (hsame segment hsegment)).elim
  · intro hnone
    apply expand_of_no_placeholder hnone

/-! ### Calls -/

/-- A request to call the tool of an endpoint with some arguments. -/
structure ToolCall (ep : Endpoint) (args params id req : Json) : Prop where
  withId : req.valueAs some (Bytes.ofAscii "id") .null = some id
  withMethod : req.member (Bytes.ofAscii "method") = some (.string (Bytes.ofAscii "tools/call"))
  withParams : req.member (Bytes.ofAscii "params") = some params
  withName : params.member (Bytes.ofAscii "name") = some (.string ep.name)
  withArguments : params.member (Bytes.ofAscii "arguments") = some args

/-- A call of the tool of an endpoint makes one request, with the method of the endpoint, to
its path with the arguments in place of the placeholders. -/
def Proxied (env : Env) (s : McpServer) (ep : Endpoint) (args : Json) : Prop :=
  ∀ params id req, ToolCall ep args params id req →
    ∃ request, (dispatch env s req).1 = [request] ∧ request.method = ep.method ∧
      request.url = expand args ep.path

/-- The first route with the name of the endpoint has its method, which is passed on, and a
path that is the expanded one as it is; and the port of the API can be read. -/
def Passable (s : McpServer) (ep : Endpoint) (args : Json) : Prop :=
  (target s.apiBase).isSome ∧ ep.method ∈ [.get, .post, .put, .patch] ∧
    ∃ route, s.routes.find? (·.name = ep.name) = some route ∧ route.method = ep.method ∧
      route.path = expand args ep.path

theorem dispatch_of_toolCall
    {env : Env} {s : McpServer} {ep : Endpoint} {args params id req : Json}
    (h : ToolCall ep args params id req) :
  dispatch env s req = handleToolsCall env s params id
  := by
  rw [dispatch, h.withId, Json.valueAs_of_member h.withMethod,
    Json.valueAs_of_member h.withParams]
  rfl

/-- The endpoint that is called is the first one with the name. -/
theorem requests_of_toolCall
    {env : Env} {s : McpServer} {ep : Endpoint} {args params id req : Json}
    (h : ToolCall ep args params id req) {route : Endpoint}
    (hroute : s.routes.find? (·.name = ep.name) = some route) :
  (dispatch env s req).1 = (callEndpoint env s.apiBase route args).1
  := by
  rw [dispatch_of_toolCall h, handleToolsCall, Json.valueAs_of_member h.withName,
    Json.valueAs_of_member h.withArguments]
  simp only [Json.asString, hroute]

/-- An endpoint without parameters is requested by its path as it is. -/
theorem callEndpoint_of_no_params
    {env : Env} {apiBase : Bytes} {ep : Endpoint} (h : ep.params = []) (args : Json) :
  (callEndpoint env apiBase ep args).1
    = match target apiBase, content ep.method [] with
      | some (host, port), some content =>
          [{ host, port, method := ep.method, url := ep.path, content }]
      | _, _ => []
  := by
  have hurl : buildUrl env ep args = some ep.path := by
    rw [buildUrl, h]
    simp
  have hbody : bodyStr env ep args = some [] := by
    rw [bodyStr, buildBody, h]
    rfl
  rw [callEndpoint, hurl, hbody]
  cases target apiBase with
  | none => rfl
  | some p =>
      dsimp only
      cases content ep.method [] <;> rfl

theorem content_isSome_iff (method : HttpMethod) (body : Bytes) :
  (content method body).isSome ↔ method ∈ [.get, .post, .put, .patch]
  := by
  cases method <;> simp [content]

/-- There is a request for every call. -/
theorem exists_toolCall (ep : Endpoint) (args : Json) :
  ∃ params id req, ToolCall ep args params id req
  := by
  use .object [(Bytes.ofAscii "arguments", args), (Bytes.ofAscii "name", .string ep.name)], .null
  use .object
    [(Bytes.ofAscii "method", .string (Bytes.ofAscii "tools/call")),
      (Bytes.ofAscii "params",
        .object [(Bytes.ofAscii "arguments", args), (Bytes.ofAscii "name", .string ep.name)])]
  constructor <;> rfl

/-- There is a route with the name of an endpoint that is a route. -/
theorem exists_route {routes : List Endpoint} {ep : Endpoint} (h : ep ∈ routes) :
  ∃ route, routes.find? (·.name = ep.name) = some route
  := by
  apply Option.isSome_iff_exists.mp
  rw [List.find?_isSome]
  use ep, h
  simp

theorem proxied_iff_passable
    {env : Env} {s : McpServer} (hparams : ∀ ep ∈ s.routes, ep.params = []) {ep : Endpoint}
    (hep : ep ∈ s.routes) (args : Json) :
  Proxied env s ep args ↔ Passable s ep args
  := by
  obtain ⟨route, hroute⟩ := exists_route hep
  have hcall := @callEndpoint_of_no_params env s.apiBase route
    (hparams route (List.mem_of_find?_eq_some hroute)) args
  have hcontent := content_isSome_iff route.method []
  constructor
  · intro h
    obtain ⟨params, id, req, hreq⟩ := exists_toolCall ep args
    obtain ⟨request, hrequest, hmethod, hurl⟩ := h params id req hreq
    rw [requests_of_toolCall hreq hroute, hcall] at hrequest
    split at hrequest
    next host port content htarget hsome =>
      obtain rfl := List.singleton_inj.mp hrequest
      rw [hsome] at hcontent
      rw [Passable, htarget, ← hmethod]
      use rfl, hcontent.mp rfl, route, hroute, rfl, hurl
    next => cases hrequest
  · rintro ⟨htarget, hmethod, route', hroute', hsame, hpath⟩ params id req hreq
    obtain rfl := Option.some.inj (hroute.symm.trans hroute')
    rw [← hsame] at hmethod
    obtain ⟨⟨host, port⟩, htarget⟩ := Option.isSome_iff_exists.mp htarget
    obtain ⟨content, hsome⟩ := Option.isSome_iff_exists.mp (hcontent.mpr hmethod)
    rw [requests_of_toolCall hreq hroute, hcall, htarget, hsome]
    use { host, port, method := route.method, url := route.path, content }, rfl, hsame, hpath

/-- Where no two endpoints have one name, a call is passed on as it should be just if the
method is one of four, and the path has no placeholders. -/
theorem passable_iff_of_unique
    {s : McpServer} (hunique : (s.routes.map Endpoint.name).Nodup) {ep : Endpoint}
    (hep : ep ∈ s.routes) {args : Json} (hargs : Gives args ep.path) :
  Passable s ep args ↔ (target s.apiBase).isSome ∧ ep.method ∈ [.get, .post, .put, .patch] ∧
    ∀ segment ∈ segments ep.path, placeholder? segment = none
  := by
  have hroute : s.routes.find? (·.name = ep.name) = some ep := by
    obtain ⟨route, hroute⟩ := exists_route hep
    have hmem := List.mem_of_find?_eq_some hroute
    have hname : route.name = ep.name := by simpa using List.find?_some hroute
    rw [hroute, List.inj_on_of_nodup_map hunique hmem hep hname]
  rw [← expand_eq_self_iff hargs, Passable, hroute]
  constructor
  · rintro ⟨htarget, hmethod, route, hsome, -, hpath⟩
    obtain rfl := Option.some.inj hsome
    use htarget, hmethod, hpath.symm
  · rintro ⟨htarget, hmethod, hpath⟩
    use htarget, hmethod, ep, rfl, rfl, hpath.symm

/-- A call of the tool of an endpoint of the HTTP server is passed on as it should be just if
the first endpoint with the name has the same method, which is GET, POST, PUT or PATCH, and the
path that is asked for as it is. -/
theorem proxied_iff
    (env : Env) {tables : List (List RouteEntry)} {server : HttpServer}
    (hserver : HttpService.start tables = some server) (apiBase : Bytes) {ep : Endpoint}
    (hep : ep ∈ server.routes) (args : Json) :
  Proxied env ⟨server.routes, apiBase⟩ ep args ↔ Passable ⟨server.routes, apiBase⟩ ep args
  := by
  apply proxied_iff_passable _ hep
  apply HttpServer.params_of_start hserver

/-- The server with the routes of the devices. -/
def deviceServer : HttpServer where
  running := true
  routes := HttpServer.builtins ++ DeviceController.routeTable.filterMap HttpServer.endpoint

/-- The endpoint that devices are created through. -/
def deviceCreate : Endpoint where
  path := Bytes.ofAscii "/api/devices"
  name := Bytes.ofAscii "device_create"
  method := .post
  description := Bytes.ofAscii "Register a new device"

/-- The endpoint that shows a device; no parameter stands for the id in its path. -/
def deviceShow : Endpoint where
  path := Bytes.ofAscii "/api/devices/:id"
  name := Bytes.ofAscii "device_show"
  method := .get
  description := Bytes.ofAscii "Get a single device by id"

theorem start_devices :
  HttpService.start [DeviceController.routeTable] = some deviceServer
  := rfl

theorem deviceShow_mem :
  deviceShow ∈ deviceServer.routes
  := List.mem_of_getElem? (i := 5) rfl

theorem proxied_iff_deviceCreate :
  Proxied offline { routes := deviceServer.routes } deviceCreate
    (.object [(Bytes.ofAscii "name", .string (Bytes.ofAscii "Lamp"))])
  := by
  apply (proxied_iff offline start_devices _ (List.mem_of_getElem? (i := 4) rfl) _).mpr
  use by decide +kernel, by decide, deviceCreate
  use by decide +kernel, rfl
  decide +kernel

/-- The device `lamp1` is asked for under the path `/api/devices/:id`. -/
theorem not_proxied :
  ¬ ∀ (env : Env) (tables : List (List RouteEntry)) (server : HttpServer),
      HttpService.start tables = some server → ∀ ep ∈ server.routes, ∀ args,
        Gives args ep.path → Proxied env { routes := server.routes } ep args
  := by
  intro h
  have hsegments : segments deviceShow.path
      = [[], Bytes.ofAscii "api", Bytes.ofAscii "devices", Bytes.ofAscii ":id"] := by
    decide
  have hgives : Gives (.object [(Bytes.ofAscii "id", .string (Bytes.ofAscii "lamp1"))])
      deviceShow.path := by
    intro segment hsegment name hname
    rw [hsegments] at hsegment
    simp only [List.mem_cons, List.not_mem_nil, or_false] at hsegment
    rcases hsegment with rfl | rfl | rfl | rfl
    · cases hname
    · cases hname
    · cases hname
    · obtain rfl := Option.some.inj hname
      have hall : (Bytes.ofAscii "lamp1").all (fun b => decide (Unreserved b)) = true := by decide
      refine ⟨Bytes.ofAscii "lamp1", rfl, by decide, ?_⟩
      intro b hb
      apply of_decide_eq_true (List.all_eq_true.mp hall b hb)
  have hproxied := h offline _ _ start_devices deviceShow deviceShow_mem _ hgives
  have hparams := HttpServer.params_of_start start_devices
  obtain ⟨-, -, route, hroute, -, hpath⟩ :=
    (proxied_iff_passable hparams deviceShow_mem _).mp hproxied
  have hfirst : deviceServer.routes.find? (·.name = deviceShow.name) = some deviceShow := by
    decide
  obtain rfl := Option.some.inj (hfirst.symm.trans hroute)
  exact absurd hpath (by decide)

end McpServer

end NexusMainframe
