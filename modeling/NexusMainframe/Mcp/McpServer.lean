import NexusMainframe.Lib.JsonText
import NexusMainframe.Lib.Machine
import NexusMainframe.Server.HttpServer

/-!
# The MCP server

The server answers JSON-RPC requests that are posted to it. The endpoints of the HTTP server
are its tools: a call of a tool is passed on as an HTTP request, which a client performs.

A function that calls a tool returns the requests that it has made with its result, and no
result when it throws. Objects have their members in the order of keys, as the library keeps
them.
-/

namespace NexusMainframe

/-- A server with its tools and the base of the API. -/
structure McpServer where
  routes : List Endpoint
  apiBase : Bytes := Bytes.ofAscii "http://localhost:8080"

namespace McpServer

/-! ### The HTTP client -/

/-- A request as it is handed to the client, with the content type behind the content. -/
structure Request where
  host : Bytes
  port : Int
  method : HttpMethod
  url : Bytes
  content : Option (Bytes × Bytes)
deriving DecidableEq

/-- What comes of a request: a response, or an error with its text. -/
inductive Result where
  | response (status : Int) (body : Bytes)
  | error (text : { text : Bytes // Utf8.Valid text })

/-- The parser, the serialiser and the indenting serialiser, and the HTTP client. -/
structure Env where
  codec : Json.Codec
  dump2 : Json → Option Bytes
  client : Request → Result

variable (env : Env)

/-! ### Texts of JSON-RPC -/

/-- `ok`, a response with a result. -/
def ok (id result : Json) : Json :=
  .object
    [(Bytes.ofAscii "id", id), (Bytes.ofAscii "jsonrpc", .string (Bytes.ofAscii "2.0")),
      (Bytes.ofAscii "result", result)]

/-- `err`, a response with an error. -/
def err (id : Json) (code : Int) (msg : Bytes) : Json :=
  .object
    [(Bytes.ofAscii "error",
        .object [(Bytes.ofAscii "code", .integer code), (Bytes.ofAscii "message", .string msg)]),
      (Bytes.ofAscii "id", id), (Bytes.ofAscii "jsonrpc", .string (Bytes.ofAscii "2.0"))]

/-- An item of content. -/
def text (content : Bytes) : Json :=
  .object
    [(Bytes.ofAscii "text", .string content),
      (Bytes.ofAscii "type", .string (Bytes.ofAscii "text"))]

/-! ### Calling an endpoint -/

/-- `std::stoi`: the integer behind white space, if there is one and it fits an `int`. -/
def stoi (s : Bytes) : Option Int :=
  let s := s.dropWhile fun b => b = 0x20 ∨ (0x09 ≤ b.toNat ∧ b.toNat ≤ 0x0D)
  let (sign, s) : Int × Bytes :=
    match s with
    | 0x2D :: s => (-1, s)
    | 0x2B :: s => (1, s)
    | s => (1, s)
  let digits := s.takeWhile fun b => 0x30 ≤ b.toNat ∧ b.toNat ≤ 0x39
  let n := sign * Bytes.ofDecimal digits
  if digits = [] ∨ n < -0x80000000 ∨ 0x80000000 ≤ n then none else some n

/-- A string without a prefix, if it has it. -/
def dropPrefix (pre s : Bytes) : Bytes :=
  if pre <+: s then s.drop pre.length else s

/-- The host and the port of the API; the conversion of the port may throw. -/
def target (apiBase : Bytes) : Option (Bytes × Int) :=
  let s := dropPrefix (Bytes.ofAscii "https://") (dropPrefix (Bytes.ofAscii "http://") apiBase)
  if 0x3A ∈ s then
    let port := (s.reverse.takeWhile (· ≠ 0x3A)).reverse
    (stoi port).map fun n => (s.take (s.length - port.length - 1), n)
  else some (s, 8080)

/-- A string with the first occurrence of a part, if there is one, replaced. -/
def replaceFirst (part val : Bytes) : Bytes → Bytes
  | [] => []
  | b :: s =>
      if part <+: b :: s then val ++ (b :: s).drop part.length
      else b :: replaceFirst part val s

/-- An argument as a part of a URL. -/
def argument (v : Json) : Option Bytes :=
  match v with
  | .string s => some s
  | v => env.codec.dump v

/-- The URL and the query with the argument for a parameter, if there is one. -/
def addParam (args : Json) (url : Bytes × Bytes) (p : EndpointParam) : Option (Bytes × Bytes) :=
  match args.member p.name with
  | none => some url
  | some v =>
      (argument env v).map fun val =>
        if p.location = Bytes.ofAscii "path" then
          (replaceFirst (0x3A :: p.name) val url.1, url.2)
        else if p.location = Bytes.ofAscii "query" then
          (url.1, url.2 ++ (if url.2 = [] then 0x3F else 0x26) :: p.name ++ 0x3D :: val)
        else url

/-- The URL of a call; it throws where an argument cannot be serialised. -/
def buildUrl (ep : Endpoint) (args : Json) : Option Bytes :=
  (ep.params.foldlM (addParam env args) (ep.path, [])).map fun url => url.1 ++ url.2

/-- The members of the body. -/
def buildBody (ep : Endpoint) (args : Json) : List (Bytes × Json) :=
  ep.params.foldl
    (fun body p =>
      if p.location = Bytes.ofAscii "body" then
        match args.member p.name with
        | none => body
        | some v => Json.setMember p.name v body
      else body)
    []

/-- The text of the body, empty if it has no members. -/
def bodyStr (ep : Endpoint) (args : Json) : Option Bytes :=
  let body := buildBody ep args
  if body = [] then some [] else env.codec.dump (.object body)

/-- What the result of a request is turned into. -/
def proxied (result : Result) : Json :=
  match result with
  | .error text =>
      .object [(Bytes.ofAscii "error", .string (Bytes.ofAscii "HTTP request failed: " ++ text))]
  | .response status body =>
      (env.codec.parse body).getD
        (.object [(Bytes.ofAscii "raw", .string body), (Bytes.ofAscii "status", .integer status)])

/-- What a method is answered with that is not passed on. -/
def unsupported : Json :=
  .object [(Bytes.ofAscii "error", .string (Bytes.ofAscii "Unsupported HTTP method"))]

/-- The content that goes with a method, for the methods that are passed on. -/
def content (method : HttpMethod) (body : Bytes) : Option (Option (Bytes × Bytes)) :=
  match method with
  | .get => some none
  | .post | .put | .patch => some (some (body, Bytes.ofAscii "application/json"))
  | .delete | .head | .options => none

/-- `callEndpoint`: the requests that it sends, and its value unless it throws. -/
def callEndpoint (apiBase : Bytes) (ep : Endpoint) (args : Json) : List Request × Option Json :=
  match buildUrl env ep args, bodyStr env ep args, target apiBase with
  | some url, some body, some (host, port) =>
      match content ep.method body with
      | none => ([], some unsupported)
      | some content =>
          let request := { host, port, method := ep.method, url, content }
          ([request], some (proxied env (env.client request)))
  | _, _, _ => ([], none)

/-! ### Dispatch -/

/-- `handleInitialize`. -/
def handleInitialize (id : Json) : Json :=
  ok id <| .object
    [(Bytes.ofAscii "capabilities", .object [(Bytes.ofAscii "tools", .object [])]),
      (Bytes.ofAscii "protocolVersion", .string (Bytes.ofAscii "2025-03-26")),
      (Bytes.ofAscii "serverInfo",
        .object
          [(Bytes.ofAscii "name", .string (Bytes.ofAscii "nexus-mcp")),
            (Bytes.ofAscii "version", .string (Bytes.ofAscii "1.0.0"))])]

/-- The entry of an endpoint in the list of tools. -/
def tool (ep : Endpoint) : Json :=
  .object
    [(Bytes.ofAscii "description",
        .string (if ep.description = [] then ep.toString else ep.description)),
      (Bytes.ofAscii "inputSchema", ep.buildInputSchema),
      (Bytes.ofAscii "name", .string ep.name)]

/-- `handleToolsList`. -/
def handleToolsList (s : McpServer) (id : Json) : Json :=
  ok id (.object [(Bytes.ofAscii "tools", .array (s.routes.map tool))])

/-- `handleToolsCall`, with the result of the call as an indented text. -/
def handleToolsCall (s : McpServer) (params id : Json) : List Request × Option Json :=
  match params.valueAs Json.asString (Bytes.ofAscii "name") [],
      params.valueAs some (Bytes.ofAscii "arguments") (.object []) with
  | some name, some args =>
      match s.routes.find? (·.name = name) with
      | none => ([], some (err id (-32602) (Bytes.ofAscii "Unknown tool: " ++ name)))
      | some ep =>
          let call := callEndpoint env s.apiBase ep args
          (call.1, (call.2.bind env.dump2).map fun content =>
            ok id (.object [(Bytes.ofAscii "content", .array [text content])]))
  | _, _ => ([], none)

/-- `dispatch`; a notification is answered with null. -/
def dispatch (s : McpServer) (req : Json) : List Request × Option Json :=
  match req.valueAs some (Bytes.ofAscii "id") .null,
      req.valueAs Json.asString (Bytes.ofAscii "method") [],
      req.valueAs some (Bytes.ofAscii "params") (.object []) with
  | some id, some method, some params =>
      if method = Bytes.ofAscii "initialize" then ([], some (handleInitialize id))
      else if method = Bytes.ofAscii "notifications/initialized" then ([], some .null)
      else if method = Bytes.ofAscii "ping" then ([], some (ok id (.object [])))
      else if method = Bytes.ofAscii "tools/list" then ([], some (handleToolsList s id))
      else if method = Bytes.ofAscii "tools/call" then handleToolsCall env s params id
      else ([], some (err id (-32601) (Bytes.ofAscii "Method not found: " ++ method)))
  | _, _, _ => ([], none)

/-- The answer when something throws. -/
def parseError : Json :=
  err .null (-32700) (Bytes.ofAscii "Parse error")

/-- The handler of `POST /mcp`: the requests made, and the status and the text of the
answer. -/
def post (s : McpServer) (body : Bytes) : List Request × Nat × Option Bytes :=
  match env.codec.parse body with
  | none => ([], 400, env.codec.dump parseError)
  | some req =>
      let call := dispatch env s req
      (call.1,
        match call.2 with
        | some .null => (204, none)
        | some response =>
            match env.codec.dump response with
            | some text => (200, some text)
            | none => (400, env.codec.dump parseError)
        | none => (400, env.codec.dump parseError))

/-- No API listens. -/
def offline : Env where
  codec := JsonText.codec 2
  dump2 := JsonText.dump 2
  client := fun _ => .error ⟨Bytes.ofAscii "Could not establish connection", by decide⟩

end McpServer

end NexusMainframe
