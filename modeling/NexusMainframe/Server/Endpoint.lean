import NexusMainframe.Lib.JsonCodec

/-!
# Endpoints

An HTTP endpoint, with the parameters that its tool schema describes. The handler, which only
the HTTP server calls, is left out.
-/

namespace NexusMainframe

/-- `HttpMethod`. -/
inductive HttpMethod where
  | get
  | post
  | patch
  | put
  | delete
  | head
  | options
deriving DecidableEq

/-- `httpMethodToString`. -/
def HttpMethod.toString : HttpMethod → Bytes
  | .get => Bytes.ofAscii "GET"
  | .post => Bytes.ofAscii "POST"
  | .patch => Bytes.ofAscii "PATCH"
  | .put => Bytes.ofAscii "PUT"
  | .delete => Bytes.ofAscii "DELETE"
  | .head => Bytes.ofAscii "HEAD"
  | .options => Bytes.ofAscii "OPTIONS"

/-- A parameter as the schema of the tool lists it. -/
structure EndpointParam where
  name : Bytes
  /-- The member `in`: `path`, `query` or `body`. -/
  location : Bytes
  type : Bytes
  description : Bytes
  required : Bool := true
deriving DecidableEq

/-- A route of the server, and a tool. -/
structure Endpoint where
  path : Bytes
  name : Bytes
  method : HttpMethod
  description : Bytes := []
  params : List EndpointParam := []
deriving DecidableEq

namespace Endpoint

/-- The constructor, which throws when the path or the name is empty. -/
def create (path name : Bytes) (method : HttpMethod) : Option Endpoint :=
  if path = [] ∨ name = [] then none else some { path, name, method }

/-- `describe`. -/
def describe (ep : Endpoint) (description : Bytes) : Endpoint :=
  { ep with description }

/-- The property that describes a parameter. -/
def property (p : EndpointParam) : Json :=
  .object <|
    (if p.description = [] then []
      else [(Bytes.ofAscii "description", .string p.description)])
    ++ [(Bytes.ofAscii "type", .string p.type)]

/-- `buildInputSchema`, with a list of the required parameters where there are any. -/
def buildInputSchema (ep : Endpoint) : Json :=
  let props := ep.params.foldl (fun props p => Json.setMember p.name (property p) props) []
  let required := (ep.params.filter (·.required)).map fun p => Json.string p.name
  .object <|
    (Bytes.ofAscii "properties", .object props)
      :: (if required = [] then [] else [(Bytes.ofAscii "required", .array required)])
    ++ [(Bytes.ofAscii "type", .string (Bytes.ofAscii "object"))]

/-- `toString`. -/
def toString (ep : Endpoint) : Bytes :=
  Bytes.ofAscii "[" ++ ep.name ++ Bytes.ofAscii "] " ++ ep.method.toString ++ Bytes.ofAscii " "
    ++ ep.path

/-- `operator==`. -/
def same (ep ep' : Endpoint) : Bool :=
  ep.method = ep'.method && ep.path = ep'.path

end Endpoint

end NexusMainframe
