import QueryPrep.Json.Record
import QueryPrep.Split.Order

/-!
# Ranges, orders and chunks in JSON

The bounds of a range are read from an object or an array; whether they are in order is a question
of its own. A quantity is an integer or a string; an order has one in each of its fields, all of
which are required.

A chunk is written as an array of its two bounds. The service answers a split with an object that
holds the chunks, or null where the range cannot be split, and how many chunks there are. Both can
be read back.
-/

namespace QueryPrep

open QueryPrep.Json

/-! ### Ranges -/

/-- An integer in the range of milliseconds. -/
def readMillis : Node → Except Fault Int :=
  Node.integer Millis.least Millis.greatest

/-- Two instants, as far as they have been read. -/
structure BoundsDraft where
  start : Option Int
  stop : Option Int

namespace BoundsDraft

/-- The two bounds of a range, in either order. -/
def shape : Shape BoundsDraft (Int × Int) where
  fields := [
    ⟨"start", (·.start.isSome), fun n d => do return { d with start := some (← readMillis n) }⟩,
    ⟨"end", (·.stop.isSome), fun n d => do return { d with stop := some (← readMillis n) }⟩]
  empty := ⟨none, none⟩
  finish d := return (← d.start, ← d.stop)

end BoundsDraft

/-- Reads the text of the two bounds of a range. -/
def TimeRange.parseBounds (text : String) : Except Fault (Int × Int) :=
  Document.read BoundsDraft.shape.read text

/-! ### Orders -/

/-- Reads a quantity. The value is kept as a whole before it is looked at. -/
def Quantity.ofNode (n : Node) : Except Fault Quantity :=
  match n.keep (Node.maxLevels - 1) with
  | none => .error .malformed
  | some (.number (.integer i)) => if Millis.Fits i then .ok (.millis i) else .error .mismatch
  | some (.string s) => .ok (.text s)
  | some _ => .error .mismatch

/-- The fields of an order, as far as they have been read. A log order has no step. -/
structure OrderDraft where
  start : Option Quantity
  stop : Option Quantity
  step : Option Quantity
  span : Option Quantity

namespace OrderDraft

def empty : OrderDraft :=
  ⟨none, none, none, none⟩

def startField : RecordField OrderDraft :=
  ⟨"start", (·.start.isSome), fun n d => do return { d with start := some (← Quantity.ofNode n) }⟩

def stopField : RecordField OrderDraft :=
  ⟨"end", (·.stop.isSome), fun n d => do return { d with stop := some (← Quantity.ofNode n) }⟩

def stepField : RecordField OrderDraft :=
  ⟨"step", (·.step.isSome), fun n d => do return { d with step := some (← Quantity.ofNode n) }⟩

def spanField (name : String) : RecordField OrderDraft :=
  ⟨name, (·.span.isSome), fun n d => do return { d with span := some (← Quantity.ofNode n) }⟩

end OrderDraft

open OrderDraft

/-- How an order to split a metric query range is read. -/
def MetricOrder.shape : Shape OrderDraft MetricOrder where
  fields := [startField, stopField, stepField, spanField "max_chunk"]
  empty := .empty
  finish d := return ⟨⟨← d.start, ← d.stop⟩, ← d.step, ← d.span⟩

/-- How an order to split a log query range is read. -/
def LogOrder.shape : Shape OrderDraft LogOrder where
  fields := [startField, stopField, spanField "chunk"]
  empty := .empty
  finish d := return ⟨⟨← d.start, ← d.stop⟩, ← d.span⟩

/-! ### Chunks and results -/

namespace Chunk

/-- A chunk is an array of two bounds and nothing else. -/
def ofNode : Node → Except Fault Chunk
  | .object _ _ => .error .mismatch
  | n => (fun b => ⟨b.1, b.2⟩) <$> BoundsDraft.shape.read n

/-- Reads chunks in the order of the text. -/
def itemsOfNodes : List Node → Except Fault (List Chunk)
  | [] => .ok []
  | n :: ns => do return (← ofNode n) :: (← itemsOfNodes ns)

/-- Reads an array of chunks. -/
def listOfNode : Node → Except Fault (List Chunk)
  | .array items closed => do
    let cs ← itemsOfNodes items
    if closed then return cs else .error .malformed
  | n => .error n.unwanted

/-- Reads the text of a chunk. -/
def parse (text : String) : Except Fault Chunk :=
  Document.read ofNode text

def toValue (c : Chunk) : Value :=
  .array [.int c.first, .int c.last]

/-- Chunks as one value. -/
def listToValue (cs : List Chunk) : Value :=
  .array (cs.map toValue)

end Chunk

/-- What a split comes to. -/
structure SplitResult where
  chunks : Option (List Chunk)
  count : Nat
deriving DecidableEq, Repr

namespace SplitResult

/-- The result with its number of chunks, which is zero if the range cannot be split. -/
def ofChunks (chunks : Option (List Chunk)) : SplitResult :=
  ⟨chunks, chunks.elim 0 List.length⟩

def toValue (r : SplitResult) : Value :=
  .object [
    ("chunks", r.chunks.elim .null Chunk.listToValue),
    ("chunk_count", .int r.count)]

/-- The fields of a result, as far as they have been read. -/
structure Draft where
  chunks : Option (Option (List Chunk))
  count : Option Nat

/-- How a result is read. Without the chunks the range could not be split. -/
def shape : Shape Draft SplitResult where
  fields := [
    ⟨"chunks", (·.chunks.isSome),
      fun n d => do return { d with chunks := some (← n.orNull Chunk.listOfNode) }⟩,
    ⟨"chunk_count", (·.count.isSome),
      fun n d => do return { d with count := some (← n.integer 0 (UInt64.size - 1)).toNat }⟩]
  empty := ⟨none, none⟩
  finish d := return ⟨d.chunks.join, ← d.count⟩

/-- Reads the text of a result. -/
def parse (text : String) : Except Fault SplitResult :=
  Document.read shape.read text

end SplitResult

end QueryPrep
