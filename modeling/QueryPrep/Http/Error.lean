import QueryPrep.Json.Node
import QueryPrep.Split.Order

/-!
# Errors of the service

Each error has a status, a code for programs and a message for people. The answer to a request that
fails carries all of them, with an identifier of the request.

What the reader of JSON adds to the message about a body that it cannot read, such as the line where
it gave up, is a text of its own, the `detail`. It is taken as it comes.
-/

namespace QueryPrep

/-- Why the body of a request was not taken. -/
inductive BodyRejection where
  /-- The content type does not announce JSON. -/
  | mediaType
  | tooLarge
  /-- The body is no JSON. -/
  | malformed
  /-- The body is JSON of another form. -/
  | mismatch
deriving DecidableEq, Repr

namespace BodyRejection

def status : BodyRejection → Nat
  | mediaType => 415
  | tooLarge => 413
  | malformed => 400
  | mismatch => 422

def message (detail : String) : BodyRejection → String
  | mediaType => "Expected request with `Content-Type: application/json`"
  | tooLarge => "Failed to buffer the request body: length limit exceeded"
  | malformed => "Failed to parse the request body as JSON" ++ detail
  | mismatch => "Failed to deserialize the JSON body into the target type" ++ detail

def ofFault : Json.Fault → BodyRejection
  | .malformed => malformed
  | .mismatch => mismatch

end BodyRejection

inductive ServiceError where
  /-- What was asked for makes no sense. -/
  | validation (reason : String)
  | body (r : BodyRejection)
  /-- A quantity of an order cannot be read. -/
  | order (e : TimeError)
  | internal (reason : String)
  | files (reason : String)
deriving DecidableEq, Repr

namespace ServiceError

def status : ServiceError → Nat
  | validation _ | order _ => 400
  | body r => r.status
  | internal _ | files _ => 500

def code : ServiceError → String
  | validation _ => "VALIDATION_ERROR"
  | body _ => "INVALID_JSON"
  | order _ => "INVALID_SPLIT_REQUEST"
  | internal _ => "INTERNAL_ERROR"
  | files _ => "IO_ERROR"

def message (e : ServiceError) (detail : String := "") : String :=
  match e with
  | validation reason => "Validation error: " ++ reason
  | body r => "Invalid JSON body: " ++ r.message detail
  | order e => "Invalid split request: " ++ e.message
  | internal reason => "Internal error: " ++ reason
  | files reason => "IO error: " ++ reason

def ofOrder : OrderError → ServiceError
  | .time e => order e
  | .reversed _ _ => validation "start must not be after end"

/-- The body of the answer. -/
def toValue (e : ServiceError) (requestId : String) (detail : String := "") : Json.Value :=
  .object [
    ("error", .object [("code", .string e.code), ("message", .string (e.message detail))]),
    ("request_id", .string requestId)]

end ServiceError

end QueryPrep
