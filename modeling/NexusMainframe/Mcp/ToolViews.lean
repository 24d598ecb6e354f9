import NexusMainframe.Mcp.JsonRpc
import NexusMainframe.Mcp.ToolRuns

/-!
# What the reading tools show

A call of a tool without placeholders in its path is answered with the text of what the API has
answered. In every state that requests, restarts and calls of tools lead to, the tools that list
something show what there is.
-/

namespace NexusMainframe

open Hidden (Act)

namespace McpServer

/-- A value with a text that is told to the caller of a tool. -/
def told (id : Json) (content : Bytes) : Json :=
  ok id (.object [(Bytes.ofAscii "content", .array [text content])])

theorem sendable_told
    {id : Json} (hid : Sendable id) {content : Bytes} (hcontent : Utf8.Valid content) :
  Sendable (told id content)
  := by
  apply sendable_ok hid
  apply sendable_object [Bytes.ofAscii "content"] rfl
  · decide
  · decide
  · simp only [List.mem_singleton, forall_eq]
    apply sendable_array
    simp only [List.mem_singleton, forall_eq]
    exact sendable_text hcontent

/-- The request for a route without parameters. -/
def routeRequest (ep : Endpoint) (content : Option (Bytes × Bytes)) : Request where
  host := Bytes.ofAscii "localhost"
  port := 8080
  method := ep.method
  url := ep.path
  content := content

theorem callEndpoint_eq
    {env : Env} {ep : Endpoint} (hparams : ep.params = []) (args : Json) :
  callEndpoint env (Bytes.ofAscii "http://localhost:8080") ep args
    = match content ep.method [] with
      | none => ([], some unsupported)
      | some content =>
          ([routeRequest ep content], some (proxied env (env.client (routeRequest ep content))))
  := by
  have hurl : buildUrl env ep args = some ep.path := by
    rw [buildUrl, hparams]
    simp
  have hbody : bodyStr env ep args = some [] := by
    rw [bodyStr, buildBody, hparams]
    rfl
  have htarget : target (Bytes.ofAscii "http://localhost:8080")
      = some (Bytes.ofAscii "localhost", 8080) := by
    decide +kernel
  rw [callEndpoint, hurl, hbody, htarget]
  dsimp only
  cases content ep.method [] <;> rfl

/-- A call of a tool is answered with what its endpoint has answered. -/
theorem post_of_toolCall
    {env : Env} {s : McpServer} {body : Bytes} {ep : Endpoint} {args params id req : Json}
    (hbody : env.codec.parse body = some req) (hcall : ToolCall ep args params id req)
    {route : Endpoint} (hroute : s.routes.find? (·.name = ep.name) = some route) {j : Json}
    (hj : (callEndpoint env s.apiBase route args).2 = some j) {content text : Bytes}
    (hcontent : env.dump2 j = some content) (htext : env.codec.dump (told id content) = some text) :
  (post env s body).2 = (200, some text)
  := by
  have hdispatch : (dispatch env s req).2 = some (told id content) := by
    rw [dispatch_of_toolCall hcall, handleToolsCall, Json.valueAs_of_member hcall.withName,
      Json.valueAs_of_member hcall.withArguments]
    simp only [Json.asString, hroute, hj, Option.bind_some, hcontent, Option.map_some]
    rfl
  rw [post, hbody]
  simp only [hdispatch]
  rw [told, ok] at htext ⊢
  simp only [htext]

end McpServer

namespace Http

variable {κ φ : Type}

/-- What is assumed of the parser and the serialiser with an indentation of two: there is one
parser, and what is serialised is UTF-8. -/
structure Env.Shared (env : Env φ) : Prop where
  parser : env.pretty.parse = env.codec.parse
  utf8 : ∀ j text, env.pretty.dump j = some text → Utf8.Valid text

/-- Where the API answers, a call of a tool by its name is answered with the status 200 and a text
that decodes to a value with a property. -/
def Tells (env : Env φ) (s : Api κ φ) (name : String) (P : Json → Prop) : Prop :=
  ∀ (call : McpCall) (ep : Endpoint) (args params id req : Json),
    call.reach = .answered → ep.name = Bytes.ofAscii name →
      env.codec.parse call.body = some req → McpServer.ToolCall ep args params id req →
        ∃ j content text, P j ∧ (call.post env s).2 = (200, some text)
          ∧ env.codec.parse text = some (McpServer.told id content)
          ∧ env.codec.parse content = some j

section

variable {env : Env φ} {s : Api κ φ} {P : Json → Prop}

/-- A value that the endpoint of a tool is answered with is told. -/
theorem tells_of_callEndpoint
    (henv : env.Spec) (hshared : env.Shared) {name : String} {ep : Endpoint}
    (hroute : server.routes.find? (·.name = Bytes.ofAscii name) = some ep)
    (hcall : ∀ (call : McpCall) args, call.reach = .answered → ∃ j, P j ∧ j.WellFormed
      ∧ (McpServer.callEndpoint (call.mcpEnv env s) mcpServer.apiBase ep args).2 = some j) :
  Tells env s name P
  := by
  intro call ep' args params id req hreach hname hbody htool
  obtain ⟨j, hP, hj, hanswered⟩ := hcall call args hreach
  obtain ⟨content, hcontent⟩ := henv.pretty.exists_dump hj.2
  have hreq := henv.codec.proper_of_parse call.body req hbody
  have hid : McpServer.Sendable id := by
    rcases Json.valueAs_eq_some htool.withId with ⟨-, rfl⟩ | ⟨v, hv, hsame⟩
    · exact McpServer.sendable_null
    · obtain rfl := Option.some.inj hsame
      exact ⟨hreq.1.member hv, hreq.2.member hv⟩
  have htold := McpServer.sendable_told hid (hshared.utf8 j content hcontent)
  obtain ⟨text, htext⟩ := henv.codec.exists_dump htold.2
  refine ⟨j, content, text, hP, ?_, henv.codec.parse_dump _ _ htold.1 htext, ?_⟩
  · rw [← hname] at hroute
    exact McpServer.post_of_toolCall hbody htool hroute hanswered hcontent htext
  · rw [← hshared.parser]
    exact henv.pretty.parse_dump _ _ hj.1 hcontent

/-- The client gets the response of the handler. -/
theorem client_routeRequest
    (hmatch : env.MatchesPaths) {call : McpCall} (hreach : call.reach = .answered) {ep : Endpoint}
    {handler : Handler} (hhandler : (ep, handler) ∈ routes) {content : Option (Bytes × Bytes)}
    (hcontent : McpServer.content ep.method [] = some content) {response : Response}
    (hrun : (handler.run env call.readings call.moment s (literals ep.path) []).2
      = some response) :
  call.client env s (McpServer.routeRequest ep content)
    = .response response.status response.body
  := by
  obtain ⟨hdecode, hvalid⟩ := decode_path ep (List.of_mem_zip hhandler).1
  have hreceived : received (McpServer.routeRequest ep content)
      = some ⟨ep.method, ep.path, [], hvalid⟩ := by
    simp only [received, McpServer.routeRequest, hdecode, McpServer.content_nil hcontent]
    rw [dif_pos hvalid]
  have hoptions : ep.method ≠ .options := by
    intro hoptions
    rw [hoptions] at hcontent
    cases hcontent
  have hrespond : (respond env call.readings call.moment s ⟨ep.method, ep.path, [], hvalid⟩).2
      = response := by
    rw [respond, perform, if_neg hoptions]
    simp only [route_self hmatch hhandler, hrun, Option.getD_some]
  unfold McpCall.client
  rw [hreach, hreceived]
  simp only [hrespond]

/-- What a handler answers to a request without a body, with its placeholders as values, is
told. -/
theorem tells_of_handler
    (henv : env.Spec) (hshared : env.Shared) (hmatch : env.MatchesPaths) {name : String}
    {ep : Endpoint} {handler : Handler}
    (hroute : server.routes.find? (·.name = Bytes.ofAscii name) = some ep)
    (hhandler : (ep, handler) ∈ routes) (hpassed : (McpServer.content ep.method []).isSome)
    (hrun : ∀ r m, ∃ response j, (handler.run env r m s (literals ep.path) []).2 = some response
      ∧ env.codec.parse response.body = some j ∧ P j) :
  Tells env s name P
  := by
  apply tells_of_callEndpoint henv hshared hroute
  intro call args hreach
  obtain ⟨response, j, hresponse, hj, hP⟩ := hrun call.readings call.moment
  obtain ⟨content, hcontent⟩ := Option.isSome_iff_exists.mp hpassed
  have hparams := HttpServer.params_of_start start_tables ep (List.of_mem_zip hhandler).1
  have hclient := client_routeRequest hmatch hreach hhandler hcontent hresponse
  refine ⟨j, hP, henv.codec.proper_of_parse _ j hj, ?_⟩
  rw [mcpServer, McpServer.callEndpoint_eq hparams, hcontent]
  simp only [McpServer.proxied, McpCall.mcpEnv, hclient, hj, Option.getD_some]

/-- The methods that the MCP server does not pass on are told as such. -/
theorem tells_unsupported
    (henv : env.Spec) (hshared : env.Shared) {name : String} {ep : Endpoint}
    (hroute : server.routes.find? (·.name = Bytes.ofAscii name) = some ep)
    (hmethod : ep.method = .delete) :
  Tells env s name (· = McpServer.unsupported)
  := by
  apply tells_of_callEndpoint henv hshared hroute
  intro call args _
  have hparams := HttpServer.params_of_start start_tables ep (List.mem_of_find?_eq_some hroute)
  refine ⟨McpServer.unsupported, rfl, ⟨by decide +kernel, by decide +kernel⟩, ?_⟩
  rw [mcpServer, McpServer.callEndpoint_eq hparams, hmethod]
  rfl

/-! ### What is refused -/

/-- A response with a value that tells of no success. -/
def Refuses (env : Env φ) (out : Option Response) : Prop :=
  ∃ response j, out = some response ∧ env.codec.parse response.body = some j
    ∧ j.member (Bytes.ofAscii "success") = some (.boolean false)

theorem refuses_answer
    (henv : env.Spec) {result : Result} (hvalid : Utf8.Valid result.message)
    (hok : result.isOk = false) :
  Refuses env (answer env.codec result)
  := by
  obtain ⟨body, hbody⟩ := henv.codec.exists_dump (Result.valid_toJson.mpr hvalid)
  refine ⟨⟨result.httpStatus, body⟩, result.toJson, ?_, ?_, ?_⟩
  · rw [answer, hbody]
    rfl
  · exact henv.codec.parse_dump _ _ result.proper_toJson hbody
  · rw [← hok]
    rfl

/-- A line that is UTF-8 can be written into the log. -/
theorem exists_emit
    {c : Json.Codec} (hc : c.Spec) (now : LogTime) (b : LogBroadcaster)
    {level source message : Bytes} (hlevel : Utf8.Valid level) (hsource : Utf8.Valid source)
    (hmessage : Utf8.Valid message) :
  ∃ out, b.emit c.dump now level source message = some out
  := by
  have hkeys : ∀ key ∈ ["level", "message", "source", "timestamp"],
      Utf8.Valid (Bytes.ofAscii key) := by
    decide +kernel
  simp only [List.forall_mem_cons, List.not_mem_nil, false_imp_iff, implies_true, and_true]
    at hkeys
  have hentry : (Json.ofStrings [(Bytes.ofAscii "level", level),
      (Bytes.ofAscii "message", message), (Bytes.ofAscii "source", source),
      (Bytes.ofAscii "timestamp", LogBroadcaster.nowIso now)]).Valid := by
    simp [Json.ofStrings, hkeys, hlevel, hsource, hmessage, LogBroadcaster.valid_nowIso]
  obtain ⟨frame, hframe⟩ := hc.exists_dump hentry
  refine ⟨_, Option.map_eq_some_iff.mpr ⟨frame, hframe, rfl⟩⟩

theorem refuses_logInfo
    (henv : env.Spec) {m : Moment} {message : Bytes} (hmessage : Utf8.Valid message)
    {next : Api κ φ → Api κ φ × Option Result}
    (hnext : ∀ u : Api κ φ, u.modules = s.modules → ∃ result, (next u).2 = some result
      ∧ Utf8.Valid result.message ∧ result.isOk = false) :
  Refuses env (ModuleController.logInfo env m s message next).2
  := by
  have hlevel : Utf8.Valid (Bytes.ofAscii "info") := by decide +kernel
  have hsource : Utf8.Valid (Bytes.ofAscii "ModuleController") := by decide +kernel
  obtain ⟨out, hout⟩ := exists_emit henv.codec m.now s.services.log hlevel hsource hmessage
  rw [ModuleController.logInfo, hout]
  obtain ⟨result, hresult, hvalid, hok⟩ :=
    hnext { s with services := { s.services with log := out.1 } } rfl
  dsimp only
  rw [hresult]
  exact refuses_answer henv hvalid hok

/-- The handlers that change something or that look for something by a parameter, but for those
that delete. -/
def refusing : List (String × Handler) :=
  [("module_enable", .moduleEnable), ("module_disable", .moduleDisable),
    ("device_create", .deviceCreate), ("device_show", .deviceShow),
    ("device_command", .deviceCommand), ("room_create", .roomCreate), ("room_show", .roomShow),
    ("room_add_device", .roomAddDevice), ("config_update", .configUpdate)]

/-- The handlers that list something. -/
def listing : List (String × Handler) :=
  [("modules_list", .moduleIndex), ("device_list", .deviceIndex), ("room_list", .roomIndex),
    ("config_show", .configShow)]

theorem exists_tool :
  ∀ t ∈ listing ++ refusing, ∃ ep ∈ server.routes.find? (·.name = Bytes.ofAscii t.1),
    (ep, t.2) ∈ routes ∧ (McpServer.content ep.method []).isSome
  := by
  decide +kernel

/-- There is nothing with a placeholder as its id or its name, and an empty body is not JSON. -/
theorem refuses_run
    (henv : env.Spec) (hs : s.Sound env) (hname : Lacks env.libs (Bytes.ofAscii ":name"))
    {ep : Endpoint} {handler : Handler} (hhandler : (ep, handler) ∈ routes)
    (hrefusing : ∃ name, (name, handler) ∈ refusing) (r : HttpServer.Readings) (m : Moment) :
  Refuses env (handler.run env r m s (literals ep.path) []).2
  := by
  have hparams := lookup_literals (ep, handler) hhandler
  have hlookup := hs.generated.lookup_cons (Bytes.ofAscii "id")
  have hlacks : Lacks env.libs (0x3A :: Bytes.ofAscii "name") := hname
  have hloaded := hs.modules.isLoaded_eq_false hlacks
  have hnil := henv.codec.parse_nil
  obtain ⟨name, hmem⟩ := hrefusing
  cases handler with
  | moduleEnable =>
      rw [Handler.run, withParam, hparams "name" List.mem_cons_self]
      apply refuses_logInfo henv (by decide +kernel)
      intro u hu
      rw [ModuleService.enable, hu, if_neg (by rw [hloaded]; decide), hlacks.load_eq_none]
      exact ⟨_, rfl, by decide +kernel, rfl⟩
  | moduleDisable =>
      rw [Handler.run, withParam, hparams "name" List.mem_cons_self]
      apply refuses_logInfo henv (by decide +kernel)
      intro u hu
      rw [ModuleService.disable, hu, if_neg (by rw [hloaded]; decide)]
      exact ⟨_, rfl, by decide +kernel, rfl⟩
  | deviceCreate =>
      rw [Handler.run, served, handle, DeviceController.create, hnil]
      exact refuses_answer henv (by decide +kernel) rfl
  | deviceShow =>
      rw [Handler.run, withParam, hparams "id" List.mem_cons_self]
      dsimp only
      rw [served, handle, DeviceController.show', Registry.get, hlookup.1]
      exact refuses_answer henv (by decide +kernel) rfl
  | deviceCommand =>
      rw [Handler.run, withParam, hparams "id" List.mem_cons_self]
      dsimp only
      rw [served, handle, DeviceController.command, hnil]
      exact refuses_answer henv (by decide +kernel) rfl
  | roomCreate =>
      rw [Handler.run, served, handle, RoomController.create, hnil]
      exact refuses_answer henv (by decide +kernel) rfl
  | roomShow =>
      rw [Handler.run, withParam, hparams "id" List.mem_cons_self]
      dsimp only
      rw [served, handle, RoomController.show', Registry.get, hlookup.2]
      exact refuses_answer henv (by decide +kernel) rfl
  | roomAddDevice =>
      rw [Handler.run, withParam, hparams "id" List.mem_cons_self]
      dsimp only
      rw [withParam, hparams "deviceId" (List.mem_cons_of_mem _ List.mem_cons_self)]
      dsimp only
      have hexists : RoomRegistry.exists' s.services.memory.rooms (0x3A :: Bytes.ofAscii "id")
          = false := by
        rw [RoomRegistry.exists', Registry.exists'_eq, hlookup.2]
        rfl
      rw [served, handle, RoomController.addDevice, RoomService.addDevice, hexists]
      exact refuses_answer henv (by decide +kernel) rfl
  | configUpdate =>
      rw [Handler.run, ConfigController.update, NexusMainframe.ConfigController.update,
        henv.pretty.parse_nil]
      exact refuses_answer henv (by decide +kernel) rfl
  | _ => simp [refusing] at hmem

/-! ### What is listed -/

theorem listed_deviceIndex (henv : env.Spec) (hs : s.Sound env) (m : Moment) :
  ∃ body ds, (served env m s .deviceIndex).2 = some ⟨200, body⟩
    ∧ env.codec.parse body = some (.array (ds.map Device.toJson))
    ∧ ListsOnce Device.entry s.services.memory.devices ds
  := by
  obtain ⟨ds, hds, -, body, hbody, hparse⟩ :=
    (showsAll_of_durable henv.codec hs.durable hs.nodupRooms).deviceIndex m
  exact ⟨body, ds, hbody, hparse, hds⟩

theorem listed_roomIndex (henv : env.Spec) (hs : s.Sound env) (m : Moment) :
  ∃ body rooms js, (served env m s .roomIndex).2 = some ⟨200, body⟩
    ∧ env.codec.parse body = some (.array js)
    ∧ ListsOnce Room.entry s.services.memory.rooms rooms
    ∧ List.Forall₂ (ShowsRoom s.services.memory.devices) rooms js
  := by
  obtain ⟨rooms, js, hrooms, hshows, -, body, hbody, hparse⟩ :=
    (showsAll_of_durable henv.codec hs.durable hs.nodupRooms).roomIndex m
  exact ⟨body, rooms, js, hbody, hparse, hrooms, hshows⟩

/-- The loaded modules are listed when the names that they report are UTF-8. -/
theorem listed_moduleIndex
    (henv : env.Spec) (hs : s.Sound env) (hnames : ∀ m ∈ s.modules.loaded, Utf8.Valid m.name) :
  ∃ body, (ModuleController.index env s).2 = some ⟨200, body⟩
    ∧ env.codec.parse body
      = some (.array ((ModuleService.list s).map ModuleController.moduleJson))
  := by
  have hwell :
      (Json.array ((ModuleService.list s).map ModuleController.moduleJson)).WellFormed := by
    apply wellFormed_array
    intro j hj
    obtain ⟨p, hp, rfl⟩ := List.mem_map.mp hj
    obtain ⟨m, hm, rfl⟩ := List.mem_map.mp hp
    apply McpServer.sendable_object [Bytes.ofAscii "name", Bytes.ofAscii "path"] rfl
    · decide
    · decide +kernel
    · simp only [List.mem_cons, List.not_mem_nil, or_false]
      rintro member (rfl | rfl)
      · exact McpServer.sendable_string (hnames m hm)
      · exact McpServer.sendable_string (hs.modules m hm).2
  obtain ⟨body, hbody⟩ := henv.codec.exists_dump hwell.2
  refine ⟨body, ?_, henv.codec.parse_dump _ _ hwell.1 hbody⟩
  rw [ModuleController.index, hbody]
  rfl

theorem listed_configShow (henv : env.Spec) (hshared : env.Shared) (hs : s.Sound env) :
  ∃ body, (ConfigController.show' env s).2 = some ⟨200, body⟩
    ∧ env.codec.parse body = some s.config.config.toJson
  := by
  obtain ⟨body, hbody⟩ := henv.pretty.exists_dump hs.config
  refine ⟨body, ?_, ?_⟩
  · rw [ConfigController.show', hbody]
    rfl
  · rw [← hshared.parser]
    exact henv.pretty.parse_dump _ _ (NexusConfig.proper_toJson _) hbody

end

/-- The tools that list something tell what there is, and each other one that something has not
been done. -/
structure TellsAll (env : Env φ) (s : Api κ φ) : Prop where
  devices : Tells env s "device_list" fun j =>
    ∃ ds, j = .array (ds.map Device.toJson) ∧ ListsOnce Device.entry s.services.memory.devices ds
  rooms : Tells env s "room_list" fun j =>
    ∃ rooms js, j = .array js ∧ ListsOnce Room.entry s.services.memory.rooms rooms
      ∧ List.Forall₂ (ShowsRoom s.services.memory.devices) rooms js
  modules : (∀ m ∈ s.modules.loaded, Utf8.Valid m.name) →
    Tells env s "modules_list" (· = .array ((ModuleService.list s).map ModuleController.moduleJson))
  config : Tells env s "config_show" (· = s.config.config.toJson)
  refused : ∀ name handler, (name, handler) ∈ refusing →
    Tells env s name fun j => j.member (Bytes.ofAscii "success") = some (.boolean false)
  unsupported : ∀ name ∈ ["device_destroy", "room_destroy", "room_remove_device"],
    Tells env s name (· = McpServer.unsupported)

section

variable {env : Env φ} {s : Api κ φ}

theorem tellsAll_of_sound
    (henv : env.Spec) (hshared : env.Shared) (hmatch : env.MatchesPaths)
    (hname : Lacks env.libs (Bytes.ofAscii ":name")) (hs : s.Sound env) :
  TellsAll env s
  := by
  have htells : ∀ {name : String} (handler : Handler) {P : Json → Prop},
      (name, handler) ∈ listing ++ refusing →
      (∀ ep, (ep, handler) ∈ routes → ∀ r m, ∃ response j,
        (handler.run env r m s (literals ep.path) []).2 = some response
          ∧ env.codec.parse response.body = some j ∧ P j) → Tells env s name P := by
    intro name handler P hmem hrun
    obtain ⟨ep, hroute, hhandler, hpassed⟩ := exists_tool _ hmem
    exact tells_of_handler henv hshared hmatch hroute hhandler hpassed (hrun ep hhandler)
  constructor
  · apply htells .deviceIndex (by decide)
    intro ep _ r m
    obtain ⟨body, ds, hbody, hparse, hds⟩ := listed_deviceIndex henv hs m
    exact ⟨_, _, hbody, hparse, ds, rfl, hds⟩
  · apply htells .roomIndex (by decide)
    intro ep _ r m
    obtain ⟨body, rooms, js, hbody, hparse, hrooms⟩ := listed_roomIndex henv hs m
    exact ⟨_, _, hbody, hparse, rooms, js, rfl, hrooms⟩
  · intro hnames
    apply htells .moduleIndex (by decide)
    intro ep _ r m
    obtain ⟨body, hbody, hparse⟩ := listed_moduleIndex henv hs hnames
    exact ⟨_, _, hbody, hparse, rfl⟩
  · apply htells .configShow (by decide)
    intro ep _ r m
    obtain ⟨body, hbody, hparse⟩ := listed_configShow henv hshared hs
    exact ⟨_, _, hbody, hparse, rfl⟩
  · intro name handler hmem
    apply htells handler (List.mem_append_right _ hmem)
    intro ep hhandler r m
    exact refuses_run henv hs hname hhandler ⟨name, hmem⟩ r m
  · intro name hmem
    have hroute : ∀ name ∈ ["device_destroy", "room_destroy", "room_remove_device"],
        ∃ ep ∈ server.routes.find? (·.name = Bytes.ofAscii name), ep.method = .delete := by
      decide +kernel
    obtain ⟨ep, hep, hmethod⟩ := hroute name hmem
    exact tells_unsupported henv hshared hep hmethod

end

/-- In every state that requests, restarts and calls of tools lead to, the tools tell what there
is, and that nothing else is done. -/
theorem tellsAll_of_run
    {env : Env φ} (henv : env.Spec) (hshared : env.Shared) (hmatch : env.MatchesPaths)
    (hname : Lacks env.libs (Bytes.ofAscii ":name")) {acts : List (Act Input McpCall)}
    {s : Option (Api κ φ)} {responses : List (Option Response)}
    (hrun : (apiSystem env).run (some (Api.init env)) acts = some (s, responses)) :
  ∃ api, s = some api ∧ TellsAll env api
  := by
  obtain ⟨api, rfl, hsound⟩ := (transparent_apiSystem henv hmatch hname).inv_of_run
    ⟨_, rfl, Api.Sound.init env⟩ hrun
  exact ⟨api, rfl, tellsAll_of_sound henv hshared hmatch hname hsound⟩

theorem someEnv_shared :
  someEnv.Shared
  where
  parser := rfl
  utf8 j text htext := by
    have hvalid := (JsonText.codec_spec 2).valid_of_dump htext
    have hdump : someEnv.pretty.dump j = some (JsonText.print 2 0 j) :=
      JsonText.codec_dump hvalid 2
    obtain rfl := Option.some.inj (hdump.symm.trans htext)
    exact JsonText.valid_print 2 j 0 hvalid

/-! ### A lamp in a hall -/

/-- A request that has a route is served by its handler, and a line is logged. -/
theorem respond_of_route
    {env : Env φ} {q : RestRequest} {handler : Handler} {params : List (Bytes × Bytes)}
    (hroute : route env.pathMatch q.method q.path = some (handler, params))
    (hmethod : q.method ≠ .options) (r : HttpServer.Readings) (m : Moment) (s : Api κ φ) :
  (respond env r m s q).1.services.memory
      = (handler.run env r m s params q.body).1.services.memory
    ∧ (respond env r m s q).1.modules = (handler.run env r m s params q.body).1.modules
  := by
  have hperform : (perform env r m s q).1 = (handler.run env r m s params q.body).1 := by
    rw [perform, if_neg hmethod, hroute]
  obtain ⟨log, hlog⟩ := exists_logResponse env m (perform env r m s q).1 q (perform env r m s q).2
  rw [respond]
  dsimp only
  rw [hlog, hperform]
  exact ⟨rfl, rfl⟩

theorem modules_enable
    {env : Env φ} (henv : env.Spec) (m : Moment) (s : Api κ φ) {name : Bytes}
    (hname : Utf8.Valid name) :
  (ModuleController.enable env m s name).1.modules
    = (s.modules.load env.libs env.wide.dump name).1
  := by
  have htexts : Utf8.Valid (Bytes.ofAscii "info") ∧ Utf8.Valid (Bytes.ofAscii "ModuleController")
      ∧ Utf8.Valid (Bytes.ofAscii "Enable request for module '")
      ∧ Utf8.Valid (Bytes.ofAscii "'") := by
    decide +kernel
  have hmessage : Utf8.Valid (Bytes.ofAscii "Enable request for module '" ++ name
      ++ Bytes.ofAscii "'") :=
    (htexts.2.2.1.append hname).append htexts.2.2.2
  unfold ModuleController.enable ModuleController.logInfo
  split
  next hemit =>
    exact absurd ⟨htexts.1, htexts.2.1, hmessage⟩ ((emit_eq_none_iff henv.codec _ _ _ _ _).mp hemit)
  next log _ _ =>
    exact ModuleService.modules_enable env { s with services := { s.services with log } } name

theorem valid_devicesPath :
  Utf8.Valid (Bytes.ofAscii "/api/devices")
  := by
  decide

/-- A request for a lamp. -/
def addLamp : RestRequest :=
  ⟨.post, Bytes.ofAscii "/api/devices", JsonText.print 2 0 lampBody, valid_devicesPath⟩

/-- A request for a hall. -/
def addHall : RestRequest :=
  ⟨.post, Bytes.ofAscii "/api/rooms", JsonText.print 2 0 hallBody, by decide⟩

/-- A request that puts the lamp into the hall. -/
def moveLamp : RestRequest where
  method := .post
  path := Bytes.ofAscii "/api/rooms/" ++ generateRoomId 1 ++ Bytes.ofAscii "/devices/"
    ++ generateId 0
  body := []
  utf8 := by decide +kernel

section

variable (r : HttpServer.Readings) (m : Moment) (s : Api κ Bytes)

theorem respond_addLamp :
  (respond someEnv r m s addLamp).1.services.memory
      = (NexusMainframe.serve Json.mergePatch (.deviceAdd (generateId m.drawn)
          (Bytes.ofAscii "Lamp") (Bytes.ofAscii "light")) s.services.memory).1
    ∧ (respond someEnv r m s addLamp).1.modules = s.modules
  := by
  have hroute : route someEnv.pathMatch addLamp.method addLamp.path
      = some (.deviceCreate, []) := by
    decide +kernel
  obtain ⟨hmemory, hmodules⟩ := respond_of_route hroute (by decide) r m s
  exact ⟨hmemory.trans (memory_createLamp m s.services), hmodules⟩

theorem respond_addHall :
  (respond someEnv r m s addHall).1.services.memory
      = (NexusMainframe.serve Json.mergePatch (.roomAdd (generateRoomId m.drawn)
          (Bytes.ofAscii "Hall")) s.services.memory).1
    ∧ (respond someEnv r m s addHall).1.modules = s.modules
  := by
  have hroute : route someEnv.pathMatch addHall.method addHall.path = some (.roomCreate, []) := by
    decide +kernel
  obtain ⟨hmemory, hmodules⟩ := respond_of_route hroute (by decide) r m s
  exact ⟨hmemory.trans (memory_createHall m s.services), hmodules⟩

theorem respond_moveLamp :
  (respond someEnv r m s moveLamp).1.services.memory
      = (NexusMainframe.serve Json.mergePatch (.roomAddDevice (generateRoomId 1) (generateId 0))
          s.services.memory).1
    ∧ (respond someEnv r m s moveLamp).1.modules = s.modules
  := by
  have hroute : route someEnv.pathMatch moveLamp.method moveLamp.path
      = some (.roomAddDevice, [(Bytes.ofAscii "id", generateRoomId 1),
        (Bytes.ofAscii "deviceId", generateId 0)]) := by
    decide +kernel
  obtain ⟨hmemory, hmodules⟩ := respond_of_route hroute (by decide) r m s
  exact ⟨hmemory.trans (memory_putLamp m s.services), hmodules⟩

theorem respond_enableLights :
  (respond someEnv r m s enableLights).1.services.memory = s.services.memory
    ∧ (respond someEnv r m s enableLights).1.modules
      = (s.modules.load someEnv.libs someEnv.wide.dump (Bytes.ofAscii "Lights")).1
  := by
  obtain ⟨hmemory, hmodules⟩ := respond_of_route route_enableLights (by decide) r m s
  constructor
  · rw [hmemory]
    apply withParam_induction (P := fun t => t.services.memory = s.services.memory) rfl
    intro name _
    apply logInfo_induction (P := fun t => t.services.memory = s.services.memory) someEnv_spec rfl
    intro log _
    exact (ModuleService.sameStore_enable _ _ _).1.memory
  · exact hmodules.trans (modules_enable someEnv_spec m s (by decide +kernel))

end

/-- A lamp and a hall are created, a tool is called, the lamp is put into the hall, and a module is
enabled. -/
noncomputable def hallCalls : List (Act Input McpCall) :=
  let readings : HttpServer.Readings := ⟨0, true, 0⟩
  [.input (.request readings .newYear addLamp),
    .input (.request readings (Moment.newYear.drawing 1) addHall),
    .event ⟨readings, .newYear, .answered, []⟩,
    .input (.request readings .newYear moveLamp),
    .input (.request readings .newYear enableLights)]

theorem tellsAll_of_run_hall :
  ∃ (api : Api Unit Bytes) (responses : List (Option Response)),
    (apiSystem someEnv).run (some (Api.init someEnv)) hallCalls = some (some api, responses)
      ∧ HasLampInHall api.services.memory
      ∧ api.modules.loaded.map Module.name = [Bytes.ofAscii "Lights"]
      ∧ TellsAll someEnv api
  := by
  obtain ⟨s, hrun, -, hview⟩ := (transparent_apiSystem (κ := Unit) someEnv_spec (fun _ _ _ => rfl)
    lacks_someEnv).exists_run ⟨_, rfl, Api.Sound.init someEnv⟩ rfl hallCalls
  obtain ⟨api, rfl, htells⟩ :=
    tellsAll_of_run someEnv_spec someEnv_shared (fun _ _ _ => rfl) lacks_someEnv hrun
  let r : HttpServer.Readings := ⟨0, true, 0⟩
  -- the states of the run without the call
  let s₁ : Api Unit Bytes := (respond someEnv r .newYear (Api.init someEnv) addLamp).1
  let s₂ : Api Unit Bytes := (respond someEnv r (Moment.newYear.drawing 1) s₁ addHall).1
  let s₃ : Api Unit Bytes := (respond someEnv r .newYear s₂ moveLamp).1
  let s₄ : Api Unit Bytes := (respond someEnv r .newYear s₃ enableLights).1
  have hquiet : api.quiet = s₄.quiet := Option.some.inj hview
  have hrelated := related_quiet_iff.mpr hquiet
  obtain ⟨hlamp, hlampModules⟩ := respond_addLamp r .newYear (Api.init someEnv : Api Unit Bytes)
  obtain ⟨hhall, hhallModules⟩ := respond_addHall r (Moment.newYear.drawing 1) s₁
  obtain ⟨hmove, hmoveModules⟩ := respond_moveLamp r .newYear s₂
  obtain ⟨hmemory, hmodules⟩ := respond_enableLights r .newYear s₃
  refine ⟨api, _, hrun, ?_, ?_, htells⟩
  · rw [(congruence_quiet someEnv.pretty .newYear).memory hrelated.services, hmemory, hmove, hhall,
      hlamp]
    exact hasLampInHall_serve
  · rw [hrelated.modules, hmodules, hmoveModules, hhallModules, hlampModules]
    decide +kernel

end Http

end NexusMainframe
