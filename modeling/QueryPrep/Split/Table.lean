import QueryPrep.Split.Layout
import QueryPrep.Time.Timestamp

/-!
# Tables of chunks

Chunks for people to read: a header, a line for each chunk with its number, its two bounds and its
span, and the number of chunks at the end. The columns have a least width and two blanks between
them.
-/

namespace QueryPrep.ChunkTable

/-- The parts of a line. -/
structure Row where
  number : List Char
  start : List Char
  stop : List Char
  span : List Char

/-- Fills up in front to a width. -/
def alignRight (width : Nat) (cs : List Char) : List Char :=
  List.replicate (width - cs.length) ' ' ++ cs

/-- Fills up behind to a width. -/
def alignLeft (width : Nat) (cs : List Char) : List Char :=
  cs ++ List.replicate (width - cs.length) ' '

/-- A line with the parts in their columns. -/
def Row.line (r : Row) : List Char :=
  alignRight 4 r.number ++ [' ', ' '] ++ alignLeft 26 r.start ++ [' ', ' '] ++
    alignLeft 26 r.stop ++ [' ', ' '] ++ alignRight 10 r.span ++ ['\n']

def header : Row :=
  ⟨['#'], "START".toList, "END".toList, "SPAN".toList⟩

/-- The row of a chunk; chunks are numbered from one. -/
def row (c : Chunk) (index : Nat) : Row where
  number := Decimal.digits (index + 1)
  start := (Timestamp.render c.first).toList
  stop := (Timestamp.render c.last).toList
  span := Decimal.write c.span ++ ['m', 's']

/-- The table of some chunks. -/
def render (cs : List Chunk) : String :=
  String.ofList <|
    header.line ++ (cs.zipIdx.flatMap fun (c, i) => (row c i).line) ++
      Decimal.digits cs.length ++ " chunk(s)\n".toList

end QueryPrep.ChunkTable
