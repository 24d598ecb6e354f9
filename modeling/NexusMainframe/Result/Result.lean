import NexusMainframe.Lib.Json

/-!
# Results of service operations

A result is an HTTP status with a message.
-/

namespace NexusMainframe

/-- What a service function returns: the status that the controller sends, and the text for it. -/
structure Result where
  httpStatus : Nat
  message : Bytes
deriving DecidableEq

namespace Result

/-- Something was done, or found. -/
def ok (message : Bytes) : Result :=
  ⟨200, message⟩

/-- Something was added. -/
def created (message : Bytes) : Result :=
  ⟨201, message⟩

/-- The request lacks something. -/
def badRequest (message : Bytes) : Result :=
  ⟨400, message⟩

/-- There is no such thing. -/
def notFound (message : Bytes) : Result :=
  ⟨404, message⟩

/-- It is there already. -/
def conflict (message : Bytes) : Result :=
  ⟨409, message⟩

/-- The program could not do it. -/
def failed (message : Bytes) : Result :=
  ⟨500, message⟩

/-- `isOk`, for the member `success`. -/
def isOk (r : Result) : Bool :=
  r.httpStatus ≥ 200 && r.httpStatus < 300

/-- The value of the text that is sent. -/
def toJson (r : Result) : Json :=
  .object [(Bytes.ofAscii "output", .string r.message), (Bytes.ofAscii "success", .boolean r.isOk)]

end Result

end NexusMainframe
