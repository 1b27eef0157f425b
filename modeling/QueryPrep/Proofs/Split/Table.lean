import QueryPrep.Proofs.Reading
import QueryPrep.Proofs.Time.Rendering
import QueryPrep.Split.Table

/-!
# What a table of chunks shows

A table is taken apart as a reader of it would: into lines, and each line into words. The columns of
a row are words, however wide they are, because two blanks stand between them; a column that
outgrows its width pushes the others aside and runs into none.

Main result: the lines of a table are a header, a row of words for each chunk, in order, and the
number of chunks (`ChunkTable.isTableOf_render`).
-/

namespace QueryPrep.ChunkTable

open QueryPrep.Text

variable {r : Row} {cs a b : List Char}

/-! ### Columns -/

/-- The columns of a row, without the line break at the end. -/
def Row.columns (r : Row) : List Char :=
  alignRight 4 r.number ++ [' ', ' '] ++ alignLeft 26 r.start ++ [' ', ' '] ++
    alignLeft 26 r.stop ++ [' ', ' '] ++ alignRight 10 r.span

theorem Row.line_eq (r : Row) : r.line = r.columns ++ ['\n'] :=
  rfl

/-- Each part is one word. -/
structure Row.IsProper (r : Row) : Prop where
  number : IsWord r.number
  start : IsWord r.start
  stop : IsWord r.stop
  span : IsWord r.span

theorem isBlankRun_replicate (n : Nat) : IsBlankRun (List.replicate n ' ') := by
  intro c hc
  rw [List.eq_of_mem_replicate hc]
  rfl

theorem words_alignRight (width : Nat) (h : IsWord cs) : words (alignRight width cs) = [cs] := by
  rw [alignRight, (isBlankRun_replicate _).words_append, h.words_eq]

theorem words_alignLeft (width : Nat) (h : IsWord cs) : words (alignLeft width cs) = [cs] := by
  rw [alignLeft, (isBlankRun_replicate _).append_words, h.words_eq]

theorem words_between (a b : List Char) : words (a ++ [' ', ' '] ++ b) = words a ++ words b := by
  rw [List.append_assoc]
  show words (a ++ ' ' :: ' ' :: b) = _
  rw [words_append_cons rfl, words_cons rfl]

/-- **The words of a row are its parts.** -/
theorem Row.IsProper.words_columns (h : r.IsProper) :
    words r.columns = [r.number, r.start, r.stop, r.span] := by
  rw [Row.columns, words_between, words_between, words_between, words_alignRight _ h.number,
    words_alignLeft _ h.start, words_alignLeft _ h.stop, words_alignRight _ h.span]
  rfl

theorem newline_not_mem (h : IsPlain cs) : '\n' ∉ cs :=
  fun hmem => absurd (h _ hmem) (by decide)

/-- A row is one line. -/
theorem Row.IsProper.newline_not_mem_columns (h : r.IsProper) : '\n' ∉ r.columns := by
  have hnumber := newline_not_mem h.number.2
  have hstart := newline_not_mem h.start.2
  have hstop := newline_not_mem h.stop.2
  have hspan := newline_not_mem h.span.2
  simp [Row.columns, alignRight, alignLeft, hnumber, hstart, hstop, hspan]

theorem isProper_header : header.IsProper :=
  ⟨⟨by decide, by decide⟩, ⟨by decide, by decide⟩, ⟨by decide, by decide⟩, ⟨by decide, by decide⟩⟩

theorem isWord_render (n : Int) : IsWord (Timestamp.render n).toList :=
  ⟨Timestamp.toList_render_ne_nil n, Timestamp.isPlain_render n⟩

theorem isProper_row (c : Chunk) (index : Nat) : (row c index).IsProper := by
  have hnumber : IsWord (Decimal.digits (index + 1)) :=
    ⟨Decimal.digits_ne_nil _, isPlain_of_isDigit fun _ => Decimal.isDigit_of_mem_digits⟩
  have hspan : IsWord (Decimal.write c.span ++ ['m', 's']) :=
    ⟨List.append_ne_nil_of_right_ne_nil _ (by decide),
      isPlain_append_iff.mpr ⟨Timestamp.isPlain_write _, by decide⟩⟩
  constructor <;> dsimp only [row]
  · exact hnumber
  · exact isWord_render c.first
  · exact isWord_render c.last
  · exact hspan

/-! ### Tables -/

/-- The text is a table of the chunks: a header, a line for each chunk with its number from one on,
its bounds as instants and its length in milliseconds, the number of chunks, and nothing else. -/
def IsTableOf (text : List Char) (cs : List Chunk) : Prop :=
  ∃ head lines, text.splitOn '\n' =
      head :: lines ++ [Decimal.digits cs.length ++ " chunk(s)".toList, []] ∧
    words head = ["#".toList, "START".toList, "END".toList, "SPAN".toList] ∧
    lines.map words = cs.zipIdx.map fun (c, i) =>
      [Decimal.digits (i + 1), (Timestamp.render c.first).toList,
        (Timestamp.render c.last).toList, Decimal.write (c.last - c.first) ++ ['m', 's']]

/-- The rows of a table, the header not among them. -/
def rows (cs : List Chunk) : List Row :=
  cs.zipIdx.map fun (c, i) => row c i

theorem isProper_of_mem_rows {cs : List Chunk} (h : r ∈ rows cs) : r.IsProper := by
  obtain ⟨⟨c, i⟩, -, rfl⟩ := List.mem_map.mp h
  exact isProper_row c i

/-- The last line, without its line break. -/
def count (cs : List Chunk) : List Char :=
  Decimal.digits cs.length ++ " chunk(s)".toList

theorem newline_not_mem_count (cs : List Chunk) : '\n' ∉ count cs := by
  rw [count, List.mem_append, not_or]
  exact ⟨fun h => absurd (Decimal.isDigit_of_mem_digits h) (by decide), by decide⟩

theorem toList_render (cs : List Chunk) : (render cs).toList =
    (header.columns :: (rows cs).map Row.columns ++ [count cs]).flatMap (· ++ ['\n']) := by
  have hrows : (cs.zipIdx.flatMap fun (c, i) => (row c i).line) =
      ((rows cs).map Row.columns).flatMap (· ++ ['\n']) := by
    rw [rows, List.map_map, List.flatMap_map]
    rfl
  rw [render, String.toList_ofList, hrows, List.flatMap_append, List.flatMap_cons,
    List.flatMap_singleton, Row.line_eq, count]
  simp

theorem lines_render (cs : List Chunk) : (render cs).toList.splitOn '\n' =
    header.columns :: (rows cs).map Row.columns ++ [count cs, []] := by
  have hlines : ∀ l ∈ header.columns :: (rows cs).map Row.columns ++ [count cs], '\n' ∉ l := by
    intro l hl
    simp only [List.mem_cons, List.mem_append, List.mem_map, List.not_mem_nil, or_false] at hl
    rcases hl with (rfl | ⟨r, hr, rfl⟩) | rfl
    · exact isProper_header.newline_not_mem_columns
    · exact (isProper_of_mem_rows hr).newline_not_mem_columns
    · exact newline_not_mem_count cs
  have hsplit := splitOn_flatMap_append hlines []
  rw [List.append_nil, ← toList_render] at hsplit
  rw [hsplit, List.splitOn_nil, List.append_assoc]
  rfl

/-- **A table of chunks shows these chunks**, in order. -/
theorem isTableOf_render (cs : List Chunk) : IsTableOf (render cs).toList cs := by
  refine ⟨_, _, lines_render cs, isProper_header.words_columns, ?_⟩
  rw [rows, List.map_map, List.map_map]
  refine List.map_congr_left fun p _ => ?_
  rw [Function.comp_apply, Function.comp_apply, (isProper_row p.1 p.2).words_columns]
  simp only [row, Chunk.span]

end QueryPrep.ChunkTable
