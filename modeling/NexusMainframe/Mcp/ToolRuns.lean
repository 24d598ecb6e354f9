import NexusMainframe.Http.ApiRuns
import NexusMainframe.Mcp.ToolCalls

/-!
# Tools only read

The MCP server runs in one process with the API, and passes the calls of tools on to the port 8080.
The requests that it makes have the paths of the routes as they are and no content, so that they
name no room, no device and no module. Whatever is posted to it between the requests to the API,
these are answered as if nothing had been posted.
-/

namespace NexusMainframe

open Hidden (Act System)
open PathPattern (Clean)

namespace McpServer

/-- The requests that a server makes whose routes have no parameters. -/
theorem mem_requests_post
    {env : Env} {s : McpServer} (hparams : ∀ ep ∈ s.routes, ep.params = []) {body : Bytes}
    {request : Request} (h : request ∈ (post env s body).1) :
  ∃ ep ∈ s.routes, request.method = ep.method ∧ request.url = ep.path
    ∧ content ep.method [] = some request.content
  := by
  unfold post at h
  split at h
  next => cases h
  next req _ =>
    dsimp only at h
    unfold dispatch at h
    split at h
    next id method params _ _ _ =>
      -- no method but `tools/call` makes requests
      split_ifs at h <;> try cases h
      unfold handleToolsCall at h
      split at h
      next name args _ _ =>
        split at h
        next => cases h
        next ep hroute =>
          have hep := List.mem_of_find?_eq_some hroute
          dsimp only at h
          rw [callEndpoint_of_no_params (hparams ep hep)] at h
          split at h
          next host port content _ hcontent =>
            obtain rfl := List.mem_singleton.mp h
            exact ⟨ep, hep, rfl, rfl, hcontent⟩
          next => cases h
      next => cases h
    next => cases h

theorem content_nil {method : HttpMethod} {content' : Option (Bytes × Bytes)}
    (h : content method [] = some content') :
  (content'.map Prod.fst).getD [] = []
  := by
  cases method <;> cases h <;> rfl

end McpServer

namespace Http

/-- What comes of a request that the MCP server makes: the API answers it; the client gives it up,
whether the API has served it or not; or another server listens on the port. -/
inductive Reach where
  | answered
  | failed (served : Bool) (text : { text : Bytes // Utf8.Valid text })
  | elsewhere (status : Int) (body : Bytes)

/-- A body that is posted to the MCP server, and what its request to the API meets. -/
structure McpCall where
  readings : HttpServer.Readings
  moment : Moment
  reach : Reach
  body : Bytes

/-- The MCP server, with the routes of the API. -/
def mcpServer : McpServer where
  routes := server.routes

/-- A request of the MCP server as the API gets it; none for a path on which its logger throws. -/
def received (request : McpServer.Request) : Option RestRequest :=
  let path := Url.percentDecode (request.url.takeWhile (· ≠ 0x3F))
  if h : Utf8.Valid path then
    some ⟨request.method, path, (request.content.map Prod.fst).getD [], h⟩
  else none

variable {κ φ : Type}

namespace McpCall

/-- What the client returns. -/
def client (env : Env φ) (call : McpCall) (s : Api κ φ) (request : McpServer.Request) :
    McpServer.Result :=
  match call.reach, received request with
  | .answered, some q =>
      let response := (respond env call.readings call.moment s q).2
      .response response.status response.body
  | .answered, none => .error ⟨Bytes.ofAscii "Failed to read connection", by decide⟩
  | .failed _ text, _ => .error text
  | .elsewhere status body, _ => .response status body

/-- What a request does to the API. -/
def effect (env : Env φ) (call : McpCall) (s : Api κ φ) (request : McpServer.Request) : Api κ φ :=
  match call.reach, received request with
  | .answered, some q | .failed true _, some q => (respond env call.readings call.moment s q).1
  | _, _ => s

/-- The environment of a call of a tool, whose client is the API itself. -/
def mcpEnv (env : Env φ) (call : McpCall) (s : Api κ φ) : McpServer.Env where
  codec := env.codec
  dump2 := env.pretty.dump
  client := call.client env s

/-- The API afterwards, and the status and the text of the answer. -/
def post (env : Env φ) (call : McpCall) (s : Api κ φ) : Api κ φ × Nat × Option Bytes :=
  let out := mcpServer.post (call.mcpEnv env s) call.body
  (out.1.foldl (call.effect env) s, out.2)

end McpCall

/-- Requests and restarts, with calls of tools between them. -/
def apiSystem (env : Env φ) :
    System (Option (Api κ φ)) Input McpCall (Option Response) where
  take := take env
  event s call := some (s.map fun s => (call.post env s).1)

/-! ### The requests that are made -/

/-- The matcher finds the values of the placeholders in a path without empty segments. -/
def Env.MatchesPaths (env : Env φ) : Prop :=
  ∀ pattern path, Clean path → env.pathMatch pattern path = PathPattern.fit pattern path

/-- The placeholders of a pattern, with themselves as values. -/
def literals (pattern : Bytes) : List (Bytes × Bytes) :=
  (PathPattern.names pattern).map fun name => (name, 0x3A :: name)

theorem fit_self :
  ∀ r ∈ routes, Clean r.1.path ∧ PathPattern.fit r.1.path r.1.path = some (literals r.1.path)
  := by
  decide +kernel

/-- Every handler finds the parameters that it reads. -/
theorem lookup_literals :
  ∀ r ∈ routes, ∀ name ∈ r.2.params,
    (literals r.1.path).lookup (Bytes.ofAscii name) = some (0x3A :: Bytes.ofAscii name)
  := by
  decide +kernel

theorem decode_path :
  ∀ ep ∈ server.routes, Url.percentDecode (ep.path.takeWhile (· ≠ 0x3F)) = ep.path
    ∧ Utf8.Valid ep.path
  := by
  decide +kernel

/-- The handlers for requests with a method that the MCP server passes on. -/
def Handler.Passed (handler : Handler) : Prop :=
  handler ∉ [.deviceDestroy, .roomDestroy, .roomRemoveDevice]

theorem passed_of_method :
  ∀ r ∈ routes, r.1.method ∈ [.get, .post, .put, .patch] → r.2.Passed
  := by
  unfold Handler.Passed
  decide +kernel

theorem exists_handler {ep : Endpoint} (hep : ep ∈ server.routes) :
  ∃ handler, (ep, handler) ∈ routes
  := by
  have hroutes : routes.map Prod.fst = server.routes := List.map_fst_zip (by decide)
  rw [← hroutes] at hep
  obtain ⟨⟨ep, handler⟩, hmem, rfl⟩ := List.mem_map.mp hep
  exact ⟨handler, hmem⟩

section

variable {env : Env φ} {r : HttpServer.Readings} {m : Moment} {s : Api κ φ}

/-- A route is found by its own pattern as a path. -/
theorem route_self
    (hmatch : env.MatchesPaths) {ep : Endpoint} {handler : Handler} (h : (ep, handler) ∈ routes) :
  route env.pathMatch ep.method ep.path = some (handler, literals ep.path)
  := by
  obtain ⟨hclean, hfit⟩ := fit_self _ h
  exact (route_eq_some_iff hmatch hclean).mpr ⟨ep, h, rfl, hfit⟩

theorem eq_of_lookup_literals
    {pattern name value : Bytes} (h : (literals pattern).lookup name = some value) :
  value = 0x3A :: name
  := by
  obtain ⟨before, after, hsplit, -⟩ := List.lookup_eq_some_iff.mp h
  have hmem : (name, value) ∈ literals pattern := by
    rw [hsplit]
    simp
  obtain ⟨name', -, heq⟩ := List.mem_map.mp hmem
  cases heq
  rfl

/-- What the MCP server asks for is the path of a route, with nothing behind it. -/
theorem received_of_mem
    {call : McpCall} {request : McpServer.Request}
    (h : request ∈ (mcpServer.post (call.mcpEnv env s) call.body).1) :
  ∃ q ep handler, received request = some q ∧ (ep, handler) ∈ routes ∧ handler.Passed
    ∧ q.method = ep.method ∧ q.path = ep.path ∧ q.body = []
  := by
  have hparams := HttpServer.params_of_start start_tables
  obtain ⟨ep, hep, hmethod, hurl, hcontent⟩ := McpServer.mem_requests_post hparams h
  obtain ⟨hdecode, hvalid⟩ := decode_path ep hep
  obtain ⟨handler, hhandler⟩ := exists_handler hep
  have hsome : (McpServer.content ep.method []).isSome := by
    rw [hcontent]
    rfl
  have hpassed := passed_of_method _ hhandler ((McpServer.content_isSome_iff _ _).mp hsome)
  refine ⟨⟨ep.method, ep.path, [], hvalid⟩, ep, handler, ?_, hhandler, hpassed, rfl, rfl, rfl⟩
  simp only [received, hurl, hdecode, hmethod, McpServer.content_nil hcontent]
  rw [dif_pos hvalid]

/-! ### What they do -/

theorem served_eq_self {q : HttpRequest}
    (h : (handle env.codec env.pretty m s.services q).1 = s.services) :
  (served env m s q).1 = s
  := by
  unfold served
  dsimp only
  rw [h]

/-- A reading request changes nothing. -/
theorem handle_reading (c pretty : Json.Codec) (s : Services κ) (id : Bytes) :
  ∀ q ∈ [HttpRequest.deviceIndex, .roomIndex, .deviceShow id, .roomShow id],
    (handle c pretty m s q).1 = s
  := by
  simp only [List.forall_mem_cons, List.not_mem_nil, false_imp_iff, implies_true, and_true]
  refine ⟨rfl, rfl, ?_, ?_⟩
  · rw [handle, DeviceController.show']
    split <;> rfl
  · rw [handle, RoomController.show']
    split <;> rfl

/-- Without a body nothing is created and no command is given. -/
theorem handle_nil {c : Json.Codec} (hc : c.Spec) (pretty : Json.Codec) (s : Services κ)
    (id : Bytes) :
  ∀ q ∈ [HttpRequest.deviceCreate [], .roomCreate [], .deviceCommand id []],
    (handle c pretty m s q).1 = s
  := by
  simp only [List.forall_mem_cons, List.not_mem_nil, false_imp_iff, implies_true, and_true]
  refine ⟨?_, ?_, ?_⟩
  · rw [handle, DeviceController.create, hc.parse_nil]
    rfl
  · rw [handle, RoomController.create, hc.parse_nil]
    rfl
  · rw [handle, DeviceController.command, hc.parse_nil]
    rfl

/-- A device is not put into a room that there is not. -/
theorem handle_roomAddDevice {s : Services κ} {roomId : Bytes}
    (h : s.memory.rooms.lookup roomId = none) (c pretty : Json.Codec) (deviceId : Bytes) :
  (handle c pretty m s (.roomAddDevice roomId deviceId)).1 = s
  := by
  have hexists : RoomRegistry.exists' s.memory.rooms roomId = false := by
    rw [RoomRegistry.exists', Registry.exists'_eq, h]
    rfl
  rw [handle, RoomController.addDevice, services_sendResult, RoomService.addDevice, hexists]
  rfl

/-- With a name that there is no library for, nothing is loaded or unloaded. -/
theorem ModuleService.enable_of_lacks
    {name : Bytes} (hs : FromLibraries env.libs s.modules.loaded) (h : Lacks env.libs name) :
  (ModuleService.enable env s name).1 = s ∧ (ModuleService.disable env s name).1 = s
  := by
  have hloaded := hs.isLoaded_eq_false h
  constructor
  · simp [ModuleService.enable, hloaded, h.load_eq_none]
  · simp [ModuleService.disable, hloaded]

/-- A handler that finds its placeholders as values and no body changes the log only. -/
theorem Handler.quiet_run
    (henv : env.Spec) (hs : s.Sound env) (hname : Lacks env.libs (Bytes.ofAscii ":name"))
    {params : List (Bytes × Bytes)}
    (hparams : ∀ name value, params.lookup name = some value → value = 0x3A :: name)
    {handler : Handler} (hpassed : handler.Passed) :
  (handler.run env r m s params []).1.quiet = s.quiet
  := by
  have hreading := fun id => handle_reading (m := m) env.codec env.pretty s.services id
  have hnil := fun id => handle_nil (m := m) henv.codec env.pretty s.services id
  cases handler with
  | status | health | metrics | moduleIndex | configShow => rfl
  | moduleEnable =>
      apply withParam_induction (P := fun t => t.quiet = s.quiet) rfl
      intro name hvalue
      obtain rfl := hparams _ _ hvalue
      apply logInfo_induction (P := fun t => t.quiet = s.quiet) henv rfl
      intro log _
      have hsame := congrArg Api.quiet
        (ModuleService.enable_of_lacks (hs.setLog log).modules hname).1
      exact hsame
  | moduleDisable =>
      apply withParam_induction (P := fun t => t.quiet = s.quiet) rfl
      intro name hvalue
      obtain rfl := hparams _ _ hvalue
      apply logInfo_induction (P := fun t => t.quiet = s.quiet) henv rfl
      intro log _
      have hsame := congrArg Api.quiet
        (ModuleService.enable_of_lacks (hs.setLog log).modules hname).2
      exact hsame
  | deviceIndex => exact congrArg Api.quiet (served_eq_self (hreading [] _ (by simp)))
  | roomIndex => exact congrArg Api.quiet (served_eq_self (hreading [] _ (by simp)))
  | deviceCreate => exact congrArg Api.quiet (served_eq_self (hnil [] _ (by simp)))
  | roomCreate => exact congrArg Api.quiet (served_eq_self (hnil [] _ (by simp)))
  | deviceShow =>
      apply withParam_induction (P := fun t => t.quiet = s.quiet) rfl
      intro id _
      exact congrArg Api.quiet (served_eq_self (hreading id _ (by simp)))
  | roomShow =>
      apply withParam_induction (P := fun t => t.quiet = s.quiet) rfl
      intro id _
      exact congrArg Api.quiet (served_eq_self (hreading id _ (by simp)))
  | deviceCommand =>
      apply withParam_induction (P := fun t => t.quiet = s.quiet) rfl
      intro id _
      exact congrArg Api.quiet (served_eq_self (hnil id _ (by simp)))
  | roomAddDevice =>
      apply withParam_induction (P := fun t => t.quiet = s.quiet) rfl
      intro id hid
      apply withParam_induction (P := fun t => t.quiet = s.quiet) rfl
      intro deviceId _
      obtain rfl := hparams _ _ hid
      have hroom := (hs.generated.lookup_cons (Bytes.ofAscii "id")).2
      exact congrArg Api.quiet (served_eq_self (handle_roomAddDevice hroom _ _ deviceId))
  | deviceDestroy | roomDestroy | roomRemoveDevice => exact absurd (by simp) hpassed
  | configUpdate =>
      simp only [run, ConfigController.update, NexusMainframe.ConfigController.update,
        henv.pretty.parse_nil]

/-- A request of the MCP server changes the log only. -/
theorem quiet_effect
    (henv : env.Spec) (hmatch : env.MatchesPaths)
    (hname : Lacks env.libs (Bytes.ofAscii ":name")) {call : McpCall}
    {request : McpServer.Request}
    (h : request ∈ (mcpServer.post (call.mcpEnv env s) call.body).1) {t : Api κ φ}
    (ht : t.Sound env) (hquiet : t.quiet = s.quiet) :
  (call.effect env t request).Sound env ∧ (call.effect env t request).quiet = s.quiet
  := by
  obtain ⟨q, ep, handler, hq, hhandler, hpassed, hmethod, hpath, hbody⟩ := received_of_mem h
  have hoptions : q.method ≠ .options := by
    rw [hmethod]
    exact (by decide +kernel : ∀ r ∈ routes, r.1.method ≠ .options) _ hhandler
  have hrespond : (respond env call.readings call.moment t q).1.quiet = t.quiet := by
    rw [quiet_respond, perform, if_neg hoptions, hmethod, hpath, route_self hmatch hhandler]
    dsimp only
    rw [hbody]
    exact Handler.quiet_run henv ht hname (fun _ _ => eq_of_lookup_literals) hpassed
  have hserved := ht.respond henv call.readings call.moment q
  unfold McpCall.effect
  rw [hq]
  cases call.reach with
  | answered => exact ⟨hserved, hrespond.trans hquiet⟩
  | failed served text =>
      cases served with
      | true => exact ⟨hserved, hrespond.trans hquiet⟩
      | false => exact ⟨ht, hquiet⟩
  | elsewhere status body => exact ⟨ht, hquiet⟩

/-- Whatever is posted to the MCP server changes the log only. -/
theorem quiet_post
    (henv : env.Spec) (hmatch : env.MatchesPaths)
    (hname : Lacks env.libs (Bytes.ofAscii ":name")) (hs : s.Sound env) (call : McpCall) :
  (call.post env s).1.Sound env ∧ (call.post env s).1.quiet = s.quiet
  := by
  rw [McpCall.post]
  apply List.foldlRecOn (motive := fun t : Api κ φ => t.Sound env ∧ t.quiet = s.quiet)
  · exact ⟨hs, rfl⟩
  · intro t ht request hrequest
    exact quiet_effect henv hmatch hname hrequest ht.1 ht.2

/-- An input does the same to states that differ in the log only. -/
theorem quiet_take
    (henv : env.Spec) {s t : Option (Api κ φ)} (h : s.map Api.quiet = t.map Api.quiet)
    (input : Input) :
  (take env s input).1.map Api.quiet = (take env t input).1.map Api.quiet
    ∧ (take env s input).2 = (take env t input).2
  := by
  cases s with
  | none =>
      obtain rfl : t = none := by simpa using h.symm
      exact ⟨rfl, rfl⟩
  | some s =>
      obtain ⟨t, rfl, ht⟩ := Option.map_eq_some_iff.mp h.symm
      cases input with
      | request r m q =>
          have hsame : SameFor (fun u v : Services κ => u.quiet = v.quiet)
              (respond env r m s q) (respond env r m t q) :=
            (congruence_quiet _ m).sameFor_respond (related_quiet_iff.mpr ht.symm) henv q
          exact ⟨congrArg some (related_quiet_iff.mp hsame.state), congrArg some hsame.outcome⟩
      | restart ending =>
          exact ⟨congrArg _ (restartApi_congr henv.pretty ht.symm ending), rfl⟩

/-- The requests to the API do not notice what is posted to the MCP server. -/
theorem transparent_apiSystem
    (henv : env.Spec) (hmatch : env.MatchesPaths)
    (hname : Lacks env.libs (Bytes.ofAscii ":name")) :
  (apiSystem env : System (Option (Api κ φ)) _ _ _).Transparent (Option.map Api.quiet)
    fun s => ∃ a, s = some a ∧ a.Sound env
  where
  view_take input h := (quiet_take henv h input).1
  output_take input h := (quiet_take henv h input).2
  inv_take {s} input h := by
    obtain ⟨a, rfl, ha⟩ := h
    cases input with
    | request r m q => exact ⟨_, rfl, ha.respond henv r m q⟩
    | restart ending =>
        obtain ⟨t, ht, hsound⟩ := ha.restartApi henv ending
        exact ⟨t, ht, hsound⟩
  event {s} call h := by
    obtain ⟨a, rfl, ha⟩ := h
    obtain ⟨hsound, hquiet⟩ := quiet_post henv hmatch hname ha call
    exact ⟨_, rfl, ⟨_, rfl, hsound⟩, congrArg some hquiet⟩

end

/-! ### Runs -/

/-- However often something is posted to the MCP server between the requests to the API and the
restarts, the program comes back from each restart, and all responses of the API and its state at
the end but for the log are those of a run in which nothing is posted. -/
theorem run_with_tools
    {env : Env φ} (henv : env.Spec) (hmatch : env.MatchesPaths)
    (hname : Lacks env.libs (Bytes.ofAscii ":name")) (acts : List (Act Input McpCall)) :
  ∃ s t : Api κ φ,
    (apiSystem env).run (some (Api.init env)) acts
        = some (some s, ((apiSystem env).takeAll (some (Api.init env : Api κ φ))
            (Hidden.inputs acts)).2)
      ∧ ((apiSystem env).takeAll (some (Api.init env)) (Hidden.inputs acts)).1 = some t
      ∧ s.quiet = t.quiet
  := by
  obtain ⟨_, hrun, ⟨s, rfl, -⟩, hview⟩ :=
    (transparent_apiSystem henv hmatch hname).exists_run ⟨_, rfl, Api.Sound.init env⟩ rfl acts
  obtain ⟨t, ht, hquiet⟩ := Option.map_eq_some_iff.mp hview.symm
  exact ⟨s, t, hrun, ht, hquiet.symm⟩

/-- Libraries by two names, and a matcher that goes by segments. -/
def someEnv : Env Bytes where
  codec := JsonText.codec 2
  pretty := JsonText.codec 2
  wide := JsonText.codec 4
  truncate n := Int32.ofNat n.toNat
  libs := ModuleManager.someLibraries
  pathMatch := PathPattern.fit

theorem someEnv_spec :
  someEnv.Spec
  := ⟨JsonText.codec_spec 2, JsonText.codec_spec 2, JsonText.codec_spec 4⟩

theorem lacks_someEnv :
  Lacks someEnv.libs (Bytes.ofAscii ":name")
  := by
  intro path m hm
  obtain ⟨file, hfile, rfl⟩ := Option.map_eq_some_iff.mp hm
  obtain ⟨hpath, hfile⟩ := Option.ite_none_right_eq_some.mp hfile
  obtain rfl := Option.some.inj hfile
  rcases hpath with rfl | rfl <;> decide

/-- A request for a module. -/
def enableLights : RestRequest :=
  ⟨.post, Bytes.ofAscii "/api/modules/Lights/enable", [], by decide⟩

theorem route_enableLights :
  route someEnv.pathMatch enableLights.method enableLights.path
    = some (.moduleEnable, [(Bytes.ofAscii "name", Bytes.ofAscii "Lights")])
  := by
  decide +kernel

/-- The lists of devices before and after a call to enable a module and a kill. -/
noncomputable def listTwice : List (Act Input McpCall) :=
  let readings : HttpServer.Readings := ⟨0, true, 0⟩
  let list : Act Input McpCall :=
    .input (.request readings .newYear ⟨.get, Bytes.ofAscii "/api/devices", [], by decide⟩)
  let call : Json := .object
    [(Bytes.ofAscii "method", .string (Bytes.ofAscii "tools/call")),
      (Bytes.ofAscii "params", .object
        [(Bytes.ofAscii "name", .string (Bytes.ofAscii "module_enable"))])]
  [list, .event ⟨readings, .newYear, .answered, JsonText.print 2 0 call⟩, .input (.restart .killed),
    list]

theorem run_with_tools_listTwice :
  ∃ s t : Api Unit Bytes,
    (apiSystem someEnv).run (some (Api.init someEnv)) listTwice
        = some (some s, ((apiSystem someEnv).takeAll (some (Api.init someEnv : Api Unit Bytes))
            (Hidden.inputs listTwice)).2)
      ∧ ((apiSystem someEnv).takeAll (some (Api.init someEnv)) (Hidden.inputs listTwice)).1
        = some t
      ∧ s.quiet = t.quiet
  := run_with_tools someEnv_spec (fun _ _ _ => rfl) lacks_someEnv listTwice

end Http

end NexusMainframe
