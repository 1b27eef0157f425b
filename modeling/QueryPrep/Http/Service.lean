import QueryPrep.Config.Settings
import QueryPrep.Filter.Reading
import QueryPrep.Http.Error
import QueryPrep.Http.MediaType
import QueryPrep.Split.Reading
import QueryPrep.Uuid

/-!
# The service

The service answers requests one by one; nothing is remembered between them. A request goes to the
endpoint at its path. Endpoints that take a body check its content type, its size and its form in
this order before they do their work, and every failure is answered with the same envelope.
-/

namespace QueryPrep

structure Request where
  method : String
  /-- The path, and what stands behind it. -/
  target : String
  contentType : Option String
  body : ByteArray

structure Response where
  status : Nat
  /-- The methods of the endpoint, where they are told. -/
  allow : Option (List String)
  body : Option Json.Value

/-- What an answer may depend on beside the request. -/
structure Circumstances where
  clock : Clock
  /-- How many seconds the service has been running. -/
  uptime : Nat
  /-- Random bits for an identifier. -/
  bits : Nat

/-- The service, with the cap on chunks. -/
structure Service where
  cap : Nat

/-- What can be asked for. -/
inductive Endpoint where
  | split
  | splitLogs
  | compile
  | health
  | live
deriving DecidableEq, Repr

namespace Endpoint

def path : Endpoint → String
  | split => "/api/v1/split"
  | splitLogs => "/api/v1/split/logs"
  | compile => "/api/v1/traceql"
  | health => "/health"
  | live => "/health/live"

def methods : Endpoint → List String
  | split | splitLogs | compile => ["POST"]
  | health | live => ["GET", "HEAD"]

/-- What follows the scheme and the authority of a target that has them. -/
def afterAuthority (target : List Char) : List Char :=
  match target.dropWhile (· ≠ ':') with
  | ':' :: '/' :: '/' :: cs => cs.dropWhile fun c => c ≠ '/' && c ≠ '?' && c ≠ '#'
  | _ => []

/-- The path of a target. A target that does not begin with a path is an absolute one. A query or a
fragment behind the path does not count. -/
def pathOf (target : List Char) : List Char :=
  (if target.head? = some '/' then target else afterAuthority target).takeWhile
    fun c => c ≠ '?' && c ≠ '#'

/-- The endpoint that a target leads to. -/
def ofTarget? (target : String) : Option Endpoint :=
  [split, splitLogs, compile, health, live].find? (·.path.toList = pathOf target.toList)

end Endpoint

namespace Service

/-! ### Bodies -/

/-- The largest number of bytes of a body. -/
def maxBody : Nat := 2097152

/-- Takes the body of a request. What follows its first value is not looked at. -/
def takeBody {α : Type} (reader : Json.Node → Except Json.Fault α) (r : Request) :
    Except ServiceError α :=
  if ¬ MediaType.AnnouncesJson r.contentType then .error (.body .mediaType)
  else if maxBody < r.body.size then .error (.body .tooLarge)
  else (reader (Json.Document.ofMarks (.decode r.body)).root).mapError fun f => .body (.ofFault f)

/-- The rows of a request to compile. -/
structure Rows where
  filters : Option (List FilterRow)

/-- Reads a list of rows; values that are no rows are skipped. -/
def readFilters : Json.Node → Except Json.Fault (List FilterRow)
  | .array items closed =>
    match Json.Node.keepItems (Json.Node.maxLevels - 2) items with
    | some values => if closed then .ok (FilterRow.ofValues values) else .error .malformed
    | none => .error .malformed
  | n => .error n.unwanted

/-- How a request to compile is read; without rows it has none. -/
def rowsShape : Json.Shape Rows (List FilterRow) where
  fields := [⟨"filters", (·.filters.isSome), fun n _ => do return ⟨some (← readFilters n)⟩⟩]
  empty := ⟨none⟩
  finish d := some (d.filters.getD [])

/-! ### Answers -/

def split (s : Service) (clock : Clock) (r : Request) : Except ServiceError Json.Value := do
  let order ← takeBody MetricOrder.shape.read r
  let q ← (order.resolve clock).mapError .ofOrder
  return (SplitResult.ofChunks (q.chunks s.cap).toOption).toValue

def splitLogs (s : Service) (clock : Clock) (r : Request) : Except ServiceError Json.Value := do
  let order ← takeBody LogOrder.shape.read r
  let q ← (order.resolve clock).mapError .ofOrder
  return (SplitResult.ofChunks (q.chunks s.cap).toOption).toValue

def compile (r : Request) : Except ServiceError Json.Value := do
  let rows ← takeBody rowsShape.read r
  return .object [("query", .string (Query.compile rows))]

/-- How the service is doing. -/
def health (s : Service) (uptime : Nat) : Json.Value :=
  .object [
    ("status", .string "healthy"),
    ("uptime_seconds", .int uptime),
    ("version", .string version),
    ("max_chunk_count", .int s.cap)]

/-- A result, or the envelope of an error. -/
def conclude (bits : Nat) (result : Except ServiceError Json.Value) (detail : String := "") :
    Response :=
  match result with
  | .ok v => ⟨200, none, some v⟩
  | .error e => ⟨e.status, none, some (e.toValue (String.ofList (Uuid.version4 bits)) detail)⟩

/-- The answer of an endpoint to one of its methods. What the reader of JSON has to say about the
body of a request is `explain`. -/
def serve (s : Service) (x : Circumstances) (r : Request) (e : Endpoint)
    (explain : Request → String := fun _ => "") : Response :=
  match e with
  | .split => conclude x.bits (s.split x.clock r) (explain r)
  | .splitLogs => conclude x.bits (s.splitLogs x.clock r) (explain r)
  | .compile => conclude x.bits (compile r) (explain r)
  | .health => ⟨200, none, if r.method = "HEAD" then none else some (s.health x.uptime)⟩
  | .live => ⟨200, none, none⟩

/-- The answer to a request. Asking for the options of a path always succeeds. -/
def respond (s : Service) (x : Circumstances) (r : Request)
    (explain : Request → String := fun _ => "") : Response :=
  let endpoint := Endpoint.ofTarget? r.target
  if r.method = "OPTIONS" then ⟨200, endpoint.map (·.methods), none⟩
  else match endpoint with
    | none => ⟨404, none, none⟩
    | some e =>
      if r.method ∈ e.methods then s.serve x r e explain else ⟨405, some e.methods, none⟩

end Service

end QueryPrep
