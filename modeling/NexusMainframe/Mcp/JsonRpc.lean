import NexusMainframe.Mcp.McpServer

/-!
# The rule of JSON-RPC

A request without an id is a notification, which gets no answer; any other request gets an
answer with its id, and with either a result or an error. The server leaves one notification
without an answer, whatever its id, and answers every other request: one without an id as if
its id were null, and one on which something throws with a null id.
-/

namespace NexusMainframe

namespace McpServer

/-! ### Answers -/

/-- What is assumed of the parser and the serialisers: the indenting serialiser refuses just
the values with a string that is not UTF-8, as the other one does, and what it writes is
UTF-8. -/
structure Env.Spec (env : Env) : Prop where
  codec : env.codec.Spec
  dump2_eq_none : ∀ j, env.dump2 j = none ↔ ¬ j.Valid
  dump2_utf8 : ∀ j text, env.dump2 j = some text → Utf8.Valid text

/-- A response to the request with an id. -/
structure Answers (id response : Json) : Prop where
  version : response.member (Bytes.ofAscii "jsonrpc") = some (.string (Bytes.ofAscii "2.0"))
  sameId : response.member (Bytes.ofAscii "id") = some id
  oneOf : (response.member (Bytes.ofAscii "result")).isSome
    ↔ response.member (Bytes.ofAscii "error") = none

/-- The text that is sent is the one of a value. -/
def Sends (env : Env) (s : McpServer) (body : Bytes) (response : Json) : Prop :=
  ∃ text, (post env s body).2.2 = some text ∧ env.codec.parse text = some response

/-- No text is sent for a notification, and a response for any other request. -/
def Follows (env : Env) (s : McpServer) (body : Bytes) (req : Json) : Prop :=
  match req.member (Bytes.ofAscii "id") with
  | none => (post env s body).2.2 = none
  | some id => ∃ response, Sends env s body response ∧ Answers id response

theorem answers_ok (id result : Json) :
  Answers id (ok id result)
  := by
  constructor
  · rfl
  · rfl
  · exact ⟨fun _ => rfl, fun _ => rfl⟩

theorem answers_err (id : Json) (code : Int) (msg : Bytes) :
  Answers id (err id code msg)
  := by
  have hresult : (err id code msg).member (Bytes.ofAscii "result") = none := rfl
  have herror : ((err id code msg).member (Bytes.ofAscii "error")).isSome := rfl
  constructor
  · rfl
  · rfl
  · rw [hresult, ← Option.not_isSome_iff_eq_none, herror]
    simp

/-- An error with a null id answers a null id only. -/
theorem answers_parseError_iff {id : Json} :
  Answers id parseError ↔ id = .null
  := by
  constructor
  · intro h
    apply (Option.some.inj h.sameId).symm
  · rintro rfl
    apply answers_err

/-- A value that is read back from its text. -/
def Sendable (j : Json) : Prop :=
  j.Proper ∧ j.Valid

/-- An object with keys that are UTF-8 and in order, and values that are read back. -/
theorem sendable_object
    (keys : List Bytes) {members : List (Bytes × Json)} (hkeys : members.map Prod.fst = keys)
    (hsorted : keys.Pairwise Json.KeyLt) (hvalid : ∀ key ∈ keys, Utf8.Valid key)
    (h : ∀ m ∈ members, Sendable m.2) :
  Sendable (.object members)
  := by
  subst hkeys
  constructor
  · rw [Json.proper_object]
    use hsorted
    intro m hm
    apply (h m hm).1
  · rw [Json.valid_object]
    intro m hm
    use hvalid m.1 (List.mem_map_of_mem hm), (h m hm).2

theorem sendable_array
    {elements : List Json} (h : ∀ j ∈ elements, Sendable j) :
  Sendable (.array elements)
  := by
  constructor
  · rw [Json.proper_array]
    intro j hj
    apply (h j hj).1
  · rw [Json.valid_array]
    intro j hj
    apply (h j hj).2

theorem sendable_string {s : Bytes} (h : Utf8.Valid s) :
  Sendable (.string s)
  := ⟨Json.proper_string, h⟩

theorem sendable_ok
    {id result : Json} (hid : Sendable id) (hresult : Sendable result) :
  Sendable (ok id result)
  := by
  apply sendable_object (["id", "jsonrpc", "result"].map Bytes.ofAscii) rfl
  · decide
  · decide
  · simp only [List.mem_cons, List.not_mem_nil, or_false]
    rintro m (rfl | rfl | rfl)
    · apply hid
    · apply sendable_string
      decide
    · apply hresult

theorem sendable_err
    {id : Json} (hid : Sendable id) {code : Int} (hcode : (Json.integer code).Proper) {msg : Bytes}
    (hmsg : Utf8.Valid msg) :
  Sendable (err id code msg)
  := by
  apply sendable_object (["error", "id", "jsonrpc"].map Bytes.ofAscii) rfl
  · decide
  · decide
  · simp only [List.mem_cons, List.not_mem_nil, or_false]
    rintro m (rfl | rfl | rfl)
    · apply sendable_object (["code", "message"].map Bytes.ofAscii) rfl
      · decide
      · decide
      · simp only [List.mem_cons, List.not_mem_nil, or_false]
        rintro m (rfl | rfl)
        · exact ⟨hcode, Json.valid_integer⟩
        · apply sendable_string hmsg
    · apply hid
    · apply sendable_string
      decide

theorem sendable_null :
  Sendable .null
  := ⟨by decide, by decide⟩

theorem sendable_parseError :
  Sendable parseError
  := by
  apply sendable_err sendable_null
  · decide
  · decide

/-- The schema of an endpoint has its keys in order. -/
theorem proper_buildInputSchema (ep : Endpoint) :
  ep.buildInputSchema.Proper
  := by
  have hproperty : ∀ p, (Endpoint.property p).Proper := by
    intro p
    rw [Endpoint.property, Json.proper_object]
    split
    · simp
    · have hkeys : (["description", "type"].map Bytes.ofAscii).Pairwise Json.KeyLt := by decide
      use hkeys
      simp
  have hprops : ∀ (params : List EndpointParam) (props : List (Bytes × Json)),
      (Json.object props).Proper → (Json.object (params.foldl
        (fun props p => Json.setMember p.name (Endpoint.property p) props) props)).Proper := by
    intro params
    induction params with
    | nil =>
        intro props h
        apply h
    | cons p params ih =>
        intro props h
        apply ih
        rw [Json.proper_object] at h ⊢
        use Json.sorted_setMember h.1 p.name _
        intro m hm
        rcases Json.mem_setMember hm with rfl | hm
        · apply hproperty
        · apply h.2 m hm
  have hobject := hprops ep.params [] (by simp)
  rw [Endpoint.buildInputSchema, Json.proper_object]
  split
  · have hkeys : (["properties", "type"].map Bytes.ofAscii).Pairwise Json.KeyLt := by decide
    use hkeys
    simpa using hobject
  · have hkeys : (["properties", "required", "type"].map Bytes.ofAscii).Pairwise Json.KeyLt := by
      decide
    use hkeys
    simp only [List.cons_append, List.nil_append, List.mem_cons, List.not_mem_nil, or_false]
    rintro m (rfl | rfl | rfl)
    · apply hobject
    · rw [Json.proper_array]
      intro j hj
      obtain ⟨p, -, rfl⟩ := List.mem_map.mp hj
      apply Json.proper_string
    · apply Json.proper_string

theorem proper_tool (ep : Endpoint) :
  (tool ep).Proper
  := by
  have hkeys : (["description", "inputSchema", "name"].map Bytes.ofAscii).Pairwise
      Json.KeyLt := by decide
  rw [tool, Json.proper_object]
  use hkeys
  simpa using proper_buildInputSchema ep

/-! ### Where nothing throws -/

/-- The answer to a request that is passed on is JSON, or at least UTF-8. -/
def Readable (env : Env) (request : Request) : Prop :=
  match env.client request with
  | .error _ => True
  | .response _ body => (env.codec.parse body).isSome ∨ Utf8.Valid body

/-- The metadata of all endpoints are UTF-8. -/
def Describable (s : McpServer) : Prop :=
  ∀ ep ∈ s.routes, (tool ep).Valid

/-- A call of a tool returns: the parameters are an object, whose name is a string if it has
one; and where there is a tool of the name, the port of the API can be read, and so can the
answers of the API. -/
def CallReturns (env : Env) (s : McpServer) (params : Json) : Prop :=
  ∃ name args, params.valueAs Json.asString (Bytes.ofAscii "name") [] = some name ∧
    params.valueAs some (Bytes.ofAscii "arguments") (.object []) = some args ∧
    ∀ ep, s.routes.find? (·.name = name) = some ep → (target s.apiBase).isSome ∧
      ∀ request ∈ (callEndpoint env s.apiBase ep args).1, Readable env request

/-- Nothing throws where a request with a method is answered. -/
def Returns (env : Env) (s : McpServer) (method : Bytes) (req : Json) : Prop :=
  (method = Bytes.ofAscii "tools/list" → Describable s) ∧
    (method = Bytes.ofAscii "tools/call" →
      CallReturns env s ((req.member (Bytes.ofAscii "params")).getD (.object [])))

/-- An argument that was read can be written. -/
theorem exists_argument
    {env : Env} (henv : env.Spec) {v : Json} (hv : v.Valid) :
  ∃ val, argument env v = some val
  := by
  cases v with
  | string s => exact ⟨s, rfl⟩
  | _ => apply henv.codec.exists_dump hv

theorem exists_buildUrl
    {env : Env} (henv : env.Spec) (ep : Endpoint) {args : Json} (hargs : args.Valid) :
  ∃ url, buildUrl env ep args = some url
  := by
  have hfold : ∀ (params : List EndpointParam) (url : Bytes × Bytes),
      ∃ url', params.foldlM (addParam env args) url = some url' := by
    intro params
    induction params with
    | nil =>
        intro url
        exact ⟨url, rfl⟩
    | cons p params ih =>
        intro url
        have hstep : ∃ url', addParam env args url p = some url' := by
          unfold addParam
          cases hmember : args.member p.name with
          | none => use url
          | some v =>
              obtain ⟨val, hval⟩ := exists_argument henv (hargs.member hmember)
              simp [hval]
        obtain ⟨url', hstep⟩ := hstep
        rw [List.foldlM_cons, hstep]
        apply ih
  obtain ⟨url, hurl⟩ := hfold ep.params (ep.path, [])
  rw [buildUrl, hurl]
  simp

theorem exists_bodyStr
    {env : Env} (henv : env.Spec) (ep : Endpoint) {args : Json} (hargs : args.Valid) :
  ∃ text, bodyStr env ep args = some text
  := by
  have hfold : ∀ (params : List EndpointParam) (body : List (Bytes × Json)),
      (Json.object body).Valid → (Json.object (params.foldl
        (fun body p =>
          if p.location = Bytes.ofAscii "body" then
            match args.member p.name with
            | none => body
            | some v => Json.setMember p.name v body
          else body) body)).Valid := by
    intro params
    induction params with
    | nil =>
        intro body h
        apply h
    | cons p params ih =>
        intro body h
        apply ih
        dsimp only
        split
        · split
          next => apply h
          next v hmember =>
            obtain ⟨members, rfl⟩ := Json.exists_object_of_member hmember
            rw [Json.valid_object] at h hargs ⊢
            intro m hm
            rcases Json.mem_setMember hm with rfl | hm
            · apply hargs _ (Json.mem_of_member hmember)
            · apply h m hm
        · apply h
  rw [bodyStr]
  split
  next => use []
  next =>
    apply henv.codec.exists_dump
    apply hfold
    simp

/-- What an answer of the API is turned into is UTF-8 just if the answer can be read. -/
theorem proxied_valid_iff
    {env : Env} (henv : env.Spec) (request : Request) :
  (proxied env (env.client request)).Valid ↔ Readable env request
  := by
  unfold Readable proxied
  cases env.client request with
  | error text =>
      have hprefix : Utf8.Valid (Bytes.ofAscii "HTTP request failed: ") := by decide
      have hkey : Utf8.Valid (Bytes.ofAscii "error") := by decide
      simpa [hkey] using hprefix.append text.2
  | response status body =>
      have hraw : Utf8.Valid (Bytes.ofAscii "raw") := by decide
      have hstatus : Utf8.Valid (Bytes.ofAscii "status") := by decide
      dsimp only
      cases hparse : env.codec.parse body with
      | none => simp [hraw, hstatus]
      | some j => simpa using (henv.codec.proper_of_parse _ _ hparse).2

/-- The result of a call has a text just if the port can be read, and the answers can. -/
theorem callEndpoint_eq_none_iff
    {env : Env} (henv : env.Spec) (apiBase : Bytes) (ep : Endpoint) {args : Json}
    (hargs : args.Valid) :
  (callEndpoint env apiBase ep args).2.bind env.dump2 = none ↔
    ¬ ((target apiBase).isSome ∧
      ∀ request ∈ (callEndpoint env apiBase ep args).1, Readable env request)
  := by
  obtain ⟨url, hurl⟩ := exists_buildUrl henv ep hargs
  obtain ⟨body, hbody⟩ := exists_bodyStr henv ep hargs
  rw [callEndpoint, hurl, hbody]
  cases target apiBase with
  | none => simp
  | some p =>
      obtain ⟨host, port⟩ := p
      dsimp only
      cases content ep.method body with
      | none =>
          have hvalid : unsupported.Valid := by decide
          simpa [henv.dump2_eq_none] using hvalid
      | some content =>
          simp [henv.dump2_eq_none, proxied_valid_iff henv]

theorem dispatch_of_method
    {req : Json} {method : Bytes}
    (hmethod : req.member (Bytes.ofAscii "method") = some (.string method)) (env : Env)
    (s : McpServer) {id params : Json} (hid : id = (req.member (Bytes.ofAscii "id")).getD .null)
    (hparams : params = (req.member (Bytes.ofAscii "params")).getD (.object [])) :
  dispatch env s req
    = if method = Bytes.ofAscii "initialize" then ([], some (handleInitialize id))
      else if method = Bytes.ofAscii "notifications/initialized" then ([], some .null)
      else if method = Bytes.ofAscii "ping" then ([], some (ok id (.object [])))
      else if method = Bytes.ofAscii "tools/list" then ([], some (handleToolsList s id))
      else if method = Bytes.ofAscii "tools/call" then handleToolsCall env s params id
      else ([], some (err id (-32601) (Bytes.ofAscii "Method not found: " ++ method)))
  := by
  have hread : req.valueAs Json.asString (Bytes.ofAscii "method") [] = some method :=
    Json.valueAs_of_member hmethod
  obtain ⟨members, rfl⟩ := Json.exists_object_of_member hmethod
  rw [dispatch, Json.valueAs_some, Json.valueAs_some, hread, hid, hparams]

/-! ### Outcomes -/

/-- The answer to a request with an id: an object that can be sent. -/
def Responds (id : Json) (result : Option Json) : Prop :=
  ∃ members, result = some (.object members) ∧ Sendable (.object members) ∧
    Answers id (.object members)

/-- No answer, or an object that cannot be written. -/
def Fails (result : Option Json) : Prop :=
  result = none ∨ ∃ members, result = some (.object members) ∧ ¬ (Json.object members).Valid

theorem responds_ok
    {id result : Json} (hid : Sendable id) (hresult : Sendable result) :
  Responds id (some (ok id result))
  := ⟨_, rfl, sendable_ok hid hresult, answers_ok id result⟩

theorem responds_err
    {id : Json} (hid : Sendable id) {code : Int} (hcode : (Json.integer code).Proper) {msg : Bytes}
    (hmsg : Utf8.Valid msg) :
  Responds id (some (err id code msg))
  := ⟨_, rfl, sendable_err hid hcode hmsg, answers_err id code msg⟩

theorem responds_toolsList
    {s : McpServer} (h : Describable s) {id : Json} (hid : Sendable id) :
  Responds id (some (handleToolsList s id))
  := by
  apply responds_ok hid
  apply sendable_object [Bytes.ofAscii "tools"] rfl
  · decide
  · decide
  · simp only [List.mem_singleton, forall_eq]
    apply sendable_array
    intro j hj
    obtain ⟨ep, hep, rfl⟩ := List.mem_map.mp hj
    exact ⟨proper_tool ep, h ep hep⟩

theorem fails_toolsList
    {s : McpServer} (h : ¬ Describable s) (id : Json) :
  Fails (some (handleToolsList s id))
  := by
  right
  refine ⟨_, rfl, ?_⟩
  intro hvalid
  apply h
  intro ep hep
  have hresult : (handleToolsList s id).member (Bytes.ofAscii "result")
      = some (.object [(Bytes.ofAscii "tools", .array (s.routes.map tool))]) := rfl
  have htools : (Json.object [(Bytes.ofAscii "tools", .array (s.routes.map tool))]).member
      (Bytes.ofAscii "tools") = some (.array (s.routes.map tool)) := rfl
  apply Json.valid_array.mp ((Json.Valid.member hvalid hresult).member htools)
  apply List.mem_map_of_mem hep

theorem sendable_text {content : Bytes} (h : Utf8.Valid content) :
  Sendable (text content)
  := by
  apply sendable_object (["text", "type"].map Bytes.ofAscii) rfl
  · decide
  · decide
  · simp only [List.mem_cons, List.not_mem_nil, or_false]
    rintro m (rfl | rfl)
    · apply sendable_string h
    · apply sendable_string
      decide

theorem responds_toolsCall
    {env : Env} (henv : env.Spec) {s : McpServer} {params : Json} (hparams : params.Valid)
    (h : CallReturns env s params) {id : Json} (hid : Sendable id) :
  Responds id (handleToolsCall env s params id).2
  := by
  obtain ⟨name, args, hname, hargs, hreturns⟩ := h
  have hargsValid := hparams.valueAs_some (by decide) hargs
  rw [handleToolsCall, hname, hargs]
  dsimp only
  cases hroute : s.routes.find? (·.name = name) with
  | none =>
      apply responds_err hid
      · decide
      · apply Utf8.Valid.append (by decide)
        apply hparams.valueAs_asString (by decide) hname
  | some ep =>
      have hsome := (callEndpoint_eq_none_iff henv s.apiBase ep hargsValid).not.mpr
        (not_not.mpr (hreturns ep hroute))
      obtain ⟨content, hcontent⟩ := Option.ne_none_iff_exists'.mp hsome
      obtain ⟨j, -, hj⟩ := Option.bind_eq_some_iff.mp hcontent
      dsimp only
      rw [hcontent]
      apply responds_ok hid
      apply sendable_object [Bytes.ofAscii "content"] rfl
      · decide
      · decide
      · simp only [List.mem_singleton, forall_eq]
        apply sendable_array
        simp only [List.mem_singleton, forall_eq]
        apply sendable_text (henv.dump2_utf8 j content hj)

theorem fails_toolsCall
    {env : Env} (henv : env.Spec) {s : McpServer} {params : Json} (hparams : params.Valid)
    (h : ¬ CallReturns env s params) (id : Json) :
  Fails (handleToolsCall env s params id).2
  := by
  left
  unfold handleToolsCall
  split
  next name args hname hargs =>
    have hargsValid := hparams.valueAs_some (by decide) hargs
    split
    next hroute =>
      exfalso
      apply h
      use name, args, hname, hargs
      intro ep hep
      rw [hroute] at hep
      cases hep
    next ep hroute =>
      have hnone := (callEndpoint_eq_none_iff henv s.apiBase ep hargsValid).mpr (by
        intro hreturns
        apply h
        use name, args, hname, hargs
        intro ep' hep'
        obtain rfl := Option.some.inj (hroute.symm.trans hep')
        apply hreturns)
      dsimp only
      rw [hnone]
      rfl
  next => rfl

theorem sendable_getD
    {req : Json} (hreq : Sendable req) (key : Bytes) {fallback : Json} (h : Sendable fallback) :
  Sendable ((req.member key).getD fallback)
  := by
  cases hmember : req.member key with
  | none => apply h
  | some v => exact ⟨hreq.1.member hmember, hreq.2.member hmember⟩

/-- Where nothing throws, a request gets a response, if it is not the notification. -/
theorem responds_dispatch
    {env : Env} (henv : env.Spec) {s : McpServer} {req : Json} (hreq : Sendable req)
    {method : Bytes} (hmethod : req.member (Bytes.ofAscii "method") = some (.string method))
    (hne : method ≠ Bytes.ofAscii "notifications/initialized") (h : Returns env s method req) :
  Responds ((req.member (Bytes.ofAscii "id")).getD .null) (dispatch env s req).2
  := by
  have hid := sendable_getD hreq (Bytes.ofAscii "id") sendable_null
  have hempty : Sendable (.object []) := ⟨by decide, by decide⟩
  have hparams := sendable_getD hreq (Bytes.ofAscii "params") hempty
  rw [dispatch_of_method hmethod env s rfl rfl, if_neg hne]
  split
  next =>
    apply responds_ok hid
    exact ⟨by decide, by decide⟩
  next =>
    split
    next => apply responds_ok hid hempty
    next =>
      split
      next hlist => apply responds_toolsList (h.1 hlist) hid
      next =>
        split
        next hcall => apply responds_toolsCall henv hparams.2 (h.2 hcall) hid
        next =>
          apply responds_err hid
          · decide
          · apply Utf8.Valid.append (by decide)
            apply hreq.2.member hmethod

/-- Where something throws, there is no response that can be written. -/
theorem fails_dispatch
    {env : Env} (henv : env.Spec) {s : McpServer} {req : Json} (hreq : Sendable req)
    {method : Bytes} (hmethod : req.member (Bytes.ofAscii "method") = some (.string method))
    (h : ¬ Returns env s method req) :
  Fails (dispatch env s req).2
  := by
  have hparams := sendable_getD hreq (Bytes.ofAscii "params") (show Sendable (.object []) from
    ⟨by decide, by decide⟩)
  rw [dispatch_of_method hmethod env s rfl rfl]
  rw [Returns, not_and_or, Classical.not_imp, Classical.not_imp] at h
  rcases h with ⟨rfl, h⟩ | ⟨rfl, h⟩
  · apply fails_toolsList h
  · apply fails_toolsCall henv hparams.2 h

/-! ### What is sent -/

theorem post_of_dispatch
    {env : Env} {body : Bytes} {req : Json} (hbody : env.codec.parse body = some req)
    (s : McpServer) :
  (post env s body).2.2 =
    match (dispatch env s req).2 with
    | some .null => none
    | some response =>
        match env.codec.dump response with
        | some text => some text
        | none => env.codec.dump parseError
    | none => env.codec.dump parseError
  := by
  rw [post, hbody]
  dsimp only
  cases (dispatch env s req).2 with
  | none => rfl
  | some response =>
      cases response with
      | null => rfl
      | _ =>
          dsimp only
          split <;> simp only [*]

theorem sends_of_responds
    {env : Env} (henv : env.Spec) {s : McpServer} {body : Bytes} {req id : Json}
    (hbody : env.codec.parse body = some req) (h : Responds id (dispatch env s req).2) :
  ∃ response, Sends env s body response ∧ Answers id response
  := by
  obtain ⟨members, hresult, ⟨hproper, hvalid⟩, hanswers⟩ := h
  obtain ⟨text, htext⟩ := henv.codec.exists_dump hvalid
  use .object members
  constructor
  · use text
    rw [post_of_dispatch hbody, hresult]
    simp only [htext, true_and]
    apply henv.codec.parse_dump _ _ hproper htext
  · apply hanswers

theorem sends_of_fails
    {env : Env} (henv : env.Spec) {s : McpServer} {body : Bytes} {req : Json}
    (hbody : env.codec.parse body = some req) (h : Fails (dispatch env s req).2) :
  Sends env s body parseError
  := by
  obtain ⟨text, htext⟩ := henv.codec.exists_dump sendable_parseError.2
  use text
  rw [post_of_dispatch hbody]
  constructor
  · rcases h with hnone | ⟨members, hresult, hnot⟩
    · rw [hnone]
      apply htext
    · rw [hresult]
      simp only [(henv.codec.dump_eq_none _).mpr hnot, htext]
  · apply henv.codec.parse_dump _ _ sendable_parseError.1 htext

/-- No text is sent for the notification. -/
theorem not_sends_of_notification
    {env : Env} {s : McpServer} {body : Bytes} {req : Json}
    (hbody : env.codec.parse body = some req)
    (hmethod : req.member (Bytes.ofAscii "method")
      = some (.string (Bytes.ofAscii "notifications/initialized"))) :
  (post env s body).2.2 = none
  := by
  rw [post_of_dispatch hbody, dispatch_of_method hmethod env s rfl rfl]
  rfl

theorem Sends.unique
    {env : Env} {s : McpServer} {body : Bytes} {response response' : Json}
    (h : Sends env s body response) (h' : Sends env s body response') :
  response = response'
  := by
  obtain ⟨text, htext, hparse⟩ := h
  obtain ⟨text', htext', hparse'⟩ := h'
  obtain rfl := Option.some.inj (htext.symm.trans htext')
  apply Option.some.inj (hparse.symm.trans hparse')

/-- A request is the one notification the server knows, or it has an id, is not that
notification, and its id is null or nothing throws. -/
def Answerable (env : Env) (s : McpServer) (method : Bytes) (req : Json) : Prop :=
  match req.member (Bytes.ofAscii "id") with
  | none => method = Bytes.ofAscii "notifications/initialized"
  | some id => method ≠ Bytes.ofAscii "notifications/initialized" ∧
      (id = .null ∨ Returns env s method req)

/-- The rule holds of a request with an id just if it is not the notification, and its id is
null where something throws. -/
theorem follows_of_id
    {env : Env} (henv : env.Spec) {s : McpServer} {body : Bytes} {req : Json} {method : Bytes}
    (hbody : env.codec.parse body = some req)
    (hmethod : req.member (Bytes.ofAscii "method") = some (.string method)) {id : Json}
    (hid : req.member (Bytes.ofAscii "id") = some id) :
  (∃ response, Sends env s body response ∧ Answers id response)
    ↔ method ≠ Bytes.ofAscii "notifications/initialized" ∧ (id = .null ∨ Returns env s method req)
  := by
  have hreq := henv.codec.proper_of_parse _ _ hbody
  constructor
  · rintro ⟨response, hsends, hanswers⟩
    constructor
    · rintro rfl
      obtain ⟨text, htext, -⟩ := hsends
      rw [not_sends_of_notification hbody hmethod] at htext
      cases htext
    · by_cases hreturns : Returns env s method req
      · right
        apply hreturns
      · left
        have hfails := sends_of_fails henv hbody (fails_dispatch henv hreq hmethod hreturns)
        rw [hsends.unique hfails] at hanswers
        apply answers_parseError_iff.mp hanswers
  · rintro ⟨hne, hcase⟩
    by_cases hreturns : Returns env s method req
    · have hresponds := responds_dispatch henv hreq hmethod hne hreturns
      rw [hid, Option.getD_some] at hresponds
      apply sends_of_responds henv hbody hresponds
    · have hnull := hcase.resolve_right hreturns
      use parseError
      use sends_of_fails henv hbody (fails_dispatch henv hreq hmethod hreturns)
      apply answers_parseError_iff.mpr hnull

/-- A request without an id gets no answer just if it is the notification. -/
theorem silent_iff
    {env : Env} (henv : env.Spec) {s : McpServer} {body : Bytes} {req : Json} {method : Bytes}
    (hbody : env.codec.parse body = some req)
    (hmethod : req.member (Bytes.ofAscii "method") = some (.string method)) :
  (post env s body).2.2 = none ↔ method = Bytes.ofAscii "notifications/initialized"
  := by
  have hreq := henv.codec.proper_of_parse _ _ hbody
  constructor
  · intro hnone
    by_contra hne
    have hsends : ∃ response, Sends env s body response := by
      by_cases hreturns : Returns env s method req
      · obtain ⟨response, hsends, -⟩ :=
          sends_of_responds henv hbody (responds_dispatch henv hreq hmethod hne hreturns)
        use response
      · use parseError
        apply sends_of_fails henv hbody (fails_dispatch henv hreq hmethod hreturns)
    obtain ⟨response, text, htext, -⟩ := hsends
    rw [hnone] at htext
    cases htext
  · rintro rfl
    apply not_sends_of_notification hbody hmethod

/-- The rule holds of a request just if it is answerable. -/
theorem follows_iff
    {env : Env} (henv : env.Spec) (s : McpServer) {body : Bytes} {req : Json} {method : Bytes}
    (hbody : env.codec.parse body = some req)
    (hmethod : req.member (Bytes.ofAscii "method") = some (.string method)) :
  Follows env s body req ↔ Answerable env s method req
  := by
  unfold Follows Answerable
  cases hid : req.member (Bytes.ofAscii "id") with
  | none => apply silent_iff henv hbody hmethod
  | some id => apply follows_of_id henv hbody hmethod hid

theorem offline_spec :
  offline.Spec
  := by
  constructor
  · apply JsonText.codec_spec
  · apply (JsonText.codec_spec 2).dump_eq_none
  · intro j text htext
    have hvalid := (JsonText.codec_spec 2).valid_of_dump (j := j) htext
    have hdump : offline.dump2 j = some (JsonText.print 2 0 j) := JsonText.codec_dump hvalid 2
    obtain rfl := Option.some.inj (hdump.symm.trans htext)
    apply JsonText.valid_print 2 j 0 hvalid

/-- A request without an id and parameters. -/
def notify (method : String) : Json :=
  Json.ofStrings [(Bytes.ofAscii "method", Bytes.ofAscii method)]

theorem parse_notify
    {method : String} (hmethod : Utf8.Valid (Bytes.ofAscii method)) :
  offline.codec.parse (JsonText.print 2 0 (notify method)) = some (notify method)
  := by
  apply JsonText.codec_parse_print
  · simp [notify, Json.ofStrings]
  · have hkey : Utf8.Valid (Bytes.ofAscii "method") := by decide
    simp [notify, Json.ofStrings, hkey, hmethod]

theorem follows_initialized :
  Follows offline { routes := HttpServer.builtins }
    (JsonText.print 2 0 (notify "notifications/initialized")) (notify "notifications/initialized")
  := (follows_iff offline_spec _ (parse_notify (by decide)) rfl).mpr rfl

/-- The request `ping` without an id is answered. -/
theorem not_follows :
  ¬ ∀ (env : Env), env.Spec → ∀ (s : McpServer) (body : Bytes) (req : Json) (method : Bytes),
      env.codec.parse body = some req →
      req.member (Bytes.ofAscii "method") = some (.string method) → Follows env s body req
  := by
  intro h
  have hbody : offline.codec.parse (JsonText.print 2 0 (notify "ping")) = some (notify "ping") :=
    parse_notify (by decide)
  have hnone := h offline offline_spec { routes := HttpServer.builtins } _ _ _ hbody rfl
  have hmethod := (silent_iff offline_spec hbody rfl).mp hnone
  exact absurd hmethod (by decide)

end McpServer

end NexusMainframe
