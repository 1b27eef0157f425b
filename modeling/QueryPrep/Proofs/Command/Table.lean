import QueryPrep.Proofs.Command.Outcome
import QueryPrep.Proofs.Split.Table
import QueryPrep.Proofs.Time.Duration

/-!
# Splits for people and for programs

A split prints its chunks as a table or in JSON. Both show the same chunks, for nothing but the
printing looks at the format (`Invocation.output_of_splitsInto`), and what the table shows of an
instant can be given as a timestamp again. The length of a chunk, which stands in the table alone,
is in the range of milliseconds: a chunk is no longer than the span that was asked for, and that
span was read as a duration (`CommandLine.fits_span_of_splitsInto`).

Main result: the table of a split shows the chunks of its JSON, and its columns can be read back
(`CommandLine.table_readable`).
-/

namespace QueryPrep

open QueryPrep.Json

/-! ### The length of a chunk -/

theorem MetricSplit.fits_span_of_chunks {q : MetricSplit} {cap : Nat} {cs : List Chunk} {c : Chunk}
    (h : q.chunks cap = .ok cs) (hc : c ∈ cs) : Millis.Fits c.span := by
  obtain ⟨hq, -, rfl⟩ := chunks_eq_ok_iff.mp h
  obtain ⟨-, -, hfirst⟩ := hq.bounds_of_mem hc
  have hle := hq.first_le_last hc
  have hstep := hq.step_pos
  -- the stride is in range, and it is longer than a full chunk
  have hstride : q.stride = Grid.fit q.step q.maxSpan + q.step := rfl
  have hgreatest := hq.fits_stride.2
  have hzero := Millis.fits_zero.1
  unfold Millis.Fits Chunk.span
  omega

theorem LogSplit.fits_span_of_chunks {q : LogSplit} {cap : Nat} {cs : List Chunk} {c : Chunk}
    (hstart : Millis.Fits q.start) (hstop : Millis.Fits q.stop) (hspan : q.span ≤ Millis.greatest)
    (h : q.chunks cap = .ok cs) (hc : c ∈ cs) : Millis.Fits c.span := by
  obtain ⟨hq, -, rfl⟩ := (chunks_eq_ok_iff hstart hstop).mp h
  obtain ⟨-, -, hfirst⟩ := hq.bounds_of_mem hc
  have hpos := hq.span_pos_of_mem hc
  have hzero := Millis.fits_zero.1
  unfold Chunk.span at hpos
  unfold Millis.Fits Chunk.span
  omega

/-- A span that is read is in range. -/
theorem Quantity.span_le_of_text {text : String} {n : Int}
    (h : (Quantity.text text).span = .ok n) : n ≤ Millis.greatest := by
  rcases hparse : Duration.parse text with e | m
  · rw [Quantity.span, hparse] at h
    cases h
  · rw [Quantity.span, hparse] at h
    obtain rfl := Except.ok.inj h
    exact (Duration.parse_eq_ok_iff.mp hparse).2

theorem LogOrder.span_le_of_resolve {start stop span : String} {clock : Clock} {q : LogSplit}
    (h : (LogOrder.ofTexts start stop span).resolve clock = .ok q) : q.span ≤ Millis.greatest := by
  obtain ⟨range, -, h⟩ := bind_eq_ok_iff.mp h
  obtain ⟨n, hn, h⟩ := bind_eq_ok_iff.mp h
  obtain rfl := Except.ok.inj h
  rcases hspan : (Quantity.text span).span with e | m
  · rw [LogOrder.ofTexts, hspan] at hn
    cases hn
  · rw [LogOrder.ofTexts, hspan] at hn
    obtain rfl := Except.ok.inj hn
    exact Quantity.span_le_of_text hspan

/-! ### Splits -/

/-- The command is to split a range, of metrics or of logs. -/
def Command.IsSplit : Command → Prop
  | split _ | splitLogs _ => True
  | compile _ | sample _ => False

/-- The command is a split, and these are its chunks. -/
inductive Command.SplitsInto (w : World) (cap : Nat) : Command → List Chunk → Prop where
  | split {order : MetricOrder} {cs : List Chunk} (h : order.outcome w.clock cap = .ok (.ok cs)) :
      SplitsInto w cap (.split order) cs
  | splitLogs {order : LogOrder} {cs : List Chunk} (h : order.outcome w.clock cap = .ok (.ok cs)) :
      SplitsInto w cap (.splitLogs order) cs

variable {i : Invocation} {w : World} {s : Settings} {cap : Nat} {cs : List Chunk}
  {words : List String}

theorem Command.SplitsInto.shown {command : Command} {format : OutputFormat}
    (h : command.SplitsInto w cap cs) :
    shown (carryOut w cap format command) = some (false, format.chunks cs) := by
  cases h with
  | split h => rw [shown_split, h]; rfl
  | splitLogs h => rw [shown_splitLogs, h]; rfl

/-- A split prints its chunks, whichever way they are printed. -/
theorem Invocation.output_of_splitsInto (hs : i.settingsOf w = .ok s)
    (h : i.command.SplitsInto w s.cap cs) (time : String) :
    ((i.run w).tell time).status = 0 ∧ ((i.run w).tell time).output = i.format.chunks cs := by
  rw [status_tell hs, output_tell hs, h.shown]
  exact ⟨rfl, rfl⟩

/-- A split that is done has chunks. -/
theorem Invocation.exists_splitsInto {time : String} (hsplit : i.command.IsSplit)
    (hstatus : ((i.run w).tell time).status = 0) :
    ∃ s cs, i.settingsOf w = .ok s ∧ i.command.SplitsInto w s.cap cs := by
  rcases i.run_cases w time with ⟨hone, -⟩ | ⟨htwo, -⟩ | ⟨-, hcompletes⟩
  · exact absurd (hstatus.symm.trans hone) (by decide)
  · exact absurd (hstatus.symm.trans htwo) (by decide)
  · obtain ⟨s, hs, hresult⟩ := hcompletes.output
    generalize i.command = command at hsplit hresult
    generalize ((i.run w).tell time).output = output at hresult
    cases hresult with
    | split h => exact ⟨s, _, hs, .split h⟩
    | splitLogs h => exact ⟨s, _, hs, .splitLogs h⟩
    | compile => exact hsplit.elim
    | print => exact hsplit.elim
    | write => exact hsplit.elim

/-- No chunk is longer than can be told. -/
theorem CommandLine.fits_span_of_splitsInto (hread : read words = some (.invoke i))
    (hstart : Millis.Fits w.clock.atStart) (hstop : Millis.Fits w.clock.atStop)
    (h : i.command.SplitsInto w cap cs) : ∀ c ∈ cs, Millis.Fits c.span := by
  intro c hc
  rcases hcommand : i.command with order | order | file | output
  · rw [hcommand] at h
    cases h with
    | split h =>
        obtain ⟨q, -, hq⟩ := map_eq_ok_iff.mp h
        exact MetricSplit.fits_span_of_chunks hq hc
  · obtain ⟨start, stop, span, rfl⟩ := exists_ofTexts_of_read hread hcommand
    rw [hcommand] at h
    cases h with
    | splitLogs h =>
        obtain ⟨q, hresolve, hq⟩ := map_eq_ok_iff.mp h
        have horder : (LogOrder.ofTexts start stop span).range.Fits := ⟨trivial, trivial⟩
        obtain ⟨hfrom, hto⟩ := LogOrder.fits_of_resolve horder hstart hstop hresolve
        exact LogSplit.fits_span_of_chunks hfrom hto (LogOrder.span_le_of_resolve hresolve) hq hc
  · rw [hcommand] at h
    cases h
  · rw [hcommand] at h
    cases h

namespace CommandLine

/-- **A table shows the chunks that are printed in JSON, and can be read back.** A split succeeds
exactly if it has chunks; it is printed in JSON as the list of these chunks, and as a table of the
same chunks, none of which is too long for its length to be told. An instant that is written is read
as itself at any time, if the year of its day is one from 0 to 9999 or beyond the calendar, and no
two instants are written alike. -/
theorem table_readable :
    (∀ (words : List String) (i : Invocation) (w : World) (time : String),
      read words = some (.invoke i) → i.command.IsSplit →
      let o := (run words w).tell time
      (o.status = 0 ↔ ∃ s cs, i.settingsOf w = .ok s ∧ i.command.SplitsInto w s.cap cs) ∧
      ∀ s cs, i.settingsOf w = .ok s → i.command.SplitsInto w s.cap cs →
        (i.format = .json → o.output = (Chunk.listToValue cs).render ++ "\n") ∧
        (i.format = .table → ChunkTable.IsTableOf o.output.toList cs) ∧
        (Millis.Fits w.clock.atStart → Millis.Fits w.clock.atStop →
          ∀ c ∈ cs, Millis.Fits (c.last - c.first))) ∧
    (∀ n, Millis.Fits n → ∃ d : Date, (∀ e : Date, e.IsDayOf n ↔ e = d) ∧
      (0 ≤ d.year ∧ d.year ≤ 9999 ∨ d.year < Timestamp.firstYear ∨ Timestamp.lastYear < d.year →
        ∀ now, Timestamp.parse (Timestamp.render n) now = .ok n)) ∧
    Function.Injective Timestamp.render := by
  refine ⟨?_, fun n hn => Timestamp.parse_render hn, Timestamp.render_injective⟩
  intro words i w time hread hsplit o
  have hrun : o = (i.run w).tell time := by
    show (run words w).tell time = _
    rw [run, hread]
  rw [hrun]
  refine ⟨⟨Invocation.exists_splitsInto hsplit, ?_⟩, fun s cs hs h => ?_⟩
  · rintro ⟨s, cs, hs, h⟩
    exact (Invocation.output_of_splitsInto hs h time).1
  have houtput := (Invocation.output_of_splitsInto hs h time).2
  refine ⟨fun hjson => ?_, fun htable => ?_, fun hstart hstop => ?_⟩
  · rw [houtput, hjson]
    rfl
  · rw [houtput, htable]
    exact ChunkTable.isTableOf_render cs
  · exact fits_span_of_splitsInto hread hstart hstop h

/-- A chunk from the least instant, which has no date, to the first of the year 0. -/
theorem table_readable_widest :
    let w : World := ⟨⟨[], [], []⟩, fun _ => none, none, "".toUTF8, ⟨0, 0⟩⟩
    let words (format : String) := ["split-logs", "--start=-9223372036854775808",
      "--end=0000-01-01", "--chunk=9223372036854775807", "--format", format]
    let c : Chunk := ⟨-9223372036854775808, -62167219200000⟩
    ((run (words "json") w).tell "").output = "[[-9223372036854775808,-62167219200000]]\n" ∧
      ChunkTable.IsTableOf ((run (words "table") w).tell "").output.toList [c] ∧
      Millis.Fits (c.last - c.first) ∧
      Timestamp.parse (Timestamp.render c.first) 0 = .ok c.first ∧
      Timestamp.parse (Timestamp.render c.last) 0 = .ok c.last := by
  intro w words c
  let order := LogOrder.ofTexts "-9223372036854775808" "0000-01-01" "9223372036854775807"
  have hsplits : Command.SplitsInto w defaultCap (.splitLogs order) [c] :=
    .splitLogs (by decide +kernel)
  obtain ⟨hprinted, hread, -⟩ := table_readable
  obtain ⟨-, hinJson⟩ := hprinted (words "json") ⟨.splitLogs order, none, .json⟩ w ""
    (by decide +kernel) trivial
  obtain ⟨-, hinTable⟩ := hprinted (words "table") ⟨.splitLogs order, none, .table⟩ w ""
    (by decide +kernel) trivial
  obtain ⟨hjson, -, -⟩ := hinJson _ [c] rfl hsplits
  obtain ⟨-, htable, hfits⟩ := hinTable _ [c] rfl hsplits
  have hlist : (Chunk.listToValue [c]).render ++ "\n" =
      "[[-9223372036854775808,-62167219200000]]\n" := by decide +kernel
  have hback (n : Int) (hn : Millis.Fits n) (hyear : 0 ≤ (Moment.ofEpochMillis n).date.year ∧
      (Moment.ofEpochMillis n).date.year ≤ 9999 ∨
      (Moment.ofEpochMillis n).date.year < Timestamp.firstYear ∨
      Timestamp.lastYear < (Moment.ofEpochMillis n).date.year) :
      Timestamp.parse (Timestamp.render n) 0 = .ok n := by
    obtain ⟨d, hd, hparse⟩ := hread n hn
    obtain rfl := (hd _).mp (Moment.isDayOf_iff.mpr rfl)
    exact hparse hyear 0
  exact ⟨(hjson rfl).trans hlist, htable rfl,
    hfits Millis.fits_zero Millis.fits_zero c List.mem_cons_self,
    hback _ (by decide) (by decide +kernel), hback _ (by decide) (by decide +kernel)⟩

end CommandLine

end QueryPrep
