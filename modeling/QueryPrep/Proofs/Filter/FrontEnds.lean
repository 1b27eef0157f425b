import QueryPrep.Proofs.Command.Line
import QueryPrep.Proofs.Command.Run
import QueryPrep.Proofs.Http.Post
import QueryPrep.Proofs.Json.Writing

/-!
# Rows are compiled alike by both front ends

Rows come to the command line as an array on the standard input or in a file, and to the service as
a member of an object in the body of a post. Whatever the items of the array are, and however the
array is written, both front ends compile the same rows into the same query, and no item makes
either of them fail (`Query.frontEnds_agree`).

The service limits how deep values may be nested, and the array lies one level deeper in the body
than it does alone. So the bound on the depth is the one of the service.
-/

namespace QueryPrep

open QueryPrep.Json

variable {text : String} {values : List Value} {w : World} {file config : Option String}

/-! ### The command -/

namespace Command

theorem readRows_of_isText (htext : (Value.array values).IsText text.toList)
    (hdepth : (Value.array values).depth ≤ Node.maxLevels) : readRows text = .ok values := by
  obtain ⟨n, hn, hdocument⟩ := htext.document
  have hkeep := (Node.keep_eq_some_iff n Node.maxLevels _).mpr ⟨hn, hdepth⟩
  rw [readRows, Document.read, hdocument]
  simp [hkeep, bind, Except.bind, Except.mapError]

/-- An array that is found is compiled, and nothing in it makes the command fail. -/
theorem carryOut_compile (cap : Nat) (format : OutputFormat)
    (htext : (Value.array values).IsText text.toList)
    (hdepth : (Value.array values).depth ≤ Node.maxLevels) (hsource : source w file = .ok text) :
    ∃ events, carryOut w cap format (.compile file) = .ok {
      refused := false
      output := match format with
        | .json => (Value.object [("query",
            .string (Query.compile (FilterRow.ofValues values)))]).render ++ "\n"
        | .table => Query.compile (FilterRow.ofValues values) ++ "\n"
      complaint := ""
      events
      files := w.files } := by
  refine ⟨LogEvent.ofCompiling values, ?_⟩
  rw [carryOut, hsource]
  simp only [bind, Except.bind, readRows_of_isText htext hdepth]
  rfl

end Command

namespace CommandLine

variable {options : Given} {format : Option OutputFormat}

/-- A line that asks to compile rows, with any of its options in any order. -/
theorem read_traceql
    (hoptions : options.Perm ((file.map ("file", ·)).toList ++ (config.map ("config", ·)).toList ++
      (format.map fun f => ("format", f.name)).toList))
    (hfile : file ≠ some "") (hconfig : config ≠ some "") :
    read ("traceql" :: options.map optionWord) =
      some (.invoke ⟨.compile file, config, format.getD .table⟩) := by
  have hnodup : (options.map Prod.fst).Nodup := by
    rw [(hoptions.map Prod.fst).nodup_iff]
    rcases file with - | _ <;> rcases config with - | _ <;> rcases format with - | _ <;> simp
  have hknown : ∀ o ∈ options, Knows ([pathSwitch "file" none] ++ common) o := by
    intro o ho
    have hmem := hoptions.mem_iff.mp ho
    simp only [List.mem_append, Option.mem_toList, Option.map_eq_some_iff] at hmem
    rcases hmem with (⟨path, rfl, rfl⟩ | ⟨path, rfl, rfl⟩) | ⟨f, rfl, rfl⟩
    · exact ⟨(by decide : '=' ∉ "file".toList), pathSwitch "file" none, rfl,
        by simpa [pathSwitch] using hfile⟩
    · exact ⟨(by decide : '=' ∉ "config".toList), pathSwitch "config" (some 'c'), rfl,
        by simpa [pathSwitch] using hconfig⟩
    · exact ⟨(by decide : '=' ∉ "format".toList), _, rfl, by cases f <;> decide⟩
  have hlookup := fun name => lookup_eq_of_perm hoptions hnodup name
  rw [read_name rfl rfl (readOptions_optionWords hknown hnodup)]
  simp only [invocation, Given.value?, List.nil_append, hlookup]
  rcases file with - | _ <;> rcases config with - | _ <;> rcases format with - | ⟨- | -⟩ <;> rfl

/-- A line that asks to compile an array prints its query. -/
theorem run_traceql (htext : (Value.array values).IsText text.toList)
    (hdepth : (Value.array values).depth ≤ Node.maxLevels)
    (hsource : Command.source w file = .ok text)
    (hsettings : ∀ path ∈ config, ∃ s, Settings.loadWith w.files w.environment path = .ok s)
    (hoptions : options.Perm ((file.map ("file", ·)).toList ++ (config.map ("config", ·)).toList ++
      (format.map fun f => ("format", f.name)).toList)) :
    let query := Query.compile (FilterRow.ofValues values)
    let outcome := run ("traceql" :: options.map optionWord) w
    outcome.status = 0 ∧ outcome.output = match format.getD .table with
      | .json => (Value.object [("query", .string query)]).render ++ "\n"
      | .table => query ++ "\n" := by
  have hconfig : config ≠ some "" := by
    rintro rfl
    obtain ⟨s, hs⟩ := hsettings "" rfl
    exact Settings.ne_empty_of_loadWith hs rfl
  have hfile : file ≠ some "" := by
    rintro rfl
    have hread : w.files.readText "" = .error .notFound := rfl
    simp [Command.source, hread, Except.mapError] at hsource
  obtain ⟨s, hs⟩ := Invocation.exists_settingsOf (w := w)
    (i := ⟨.compile file, config, format.getD .table⟩) hsettings
  obtain ⟨files, logging, hprepared, hrun⟩ := Invocation.run_of_settings hs
  -- a log file may have been added before the rows are read
  have hsource' : Command.source { w with files } file = .ok text := by
    rcases file with - | path
    · exact hsource
    · rcases hread : w.files.readText path with e | found
      · simp [Command.source, hread, Except.mapError] at hsource
      · rw [Command.source, hread] at hsource
        rw [Command.source, hprepared.readText hread]
        exact hsource
  obtain ⟨events, hcompile⟩ := Command.carryOut_compile s.cap (format.getD .table)
    htext hdepth hsource'
  simp only [hcompile] at hrun
  rw [run, read_traceql hoptions hfile hconfig]
  simp only [hrun]
  exact ⟨rfl, rfl⟩

end CommandLine

/-! ### The service -/

namespace Service

/-- The body of a post with rows. -/
theorem isText_body (htext : (Value.array values).IsText text.toList) :
    (Value.object [("filters", .array values)]).IsText
      ("\x7b\"filters\": " ++ text ++ "\x7d").toList := by
  have hmember := (htext.blank_append (Token.isBlank_singleton (.inl rfl))).member "filters"
  simpa [Value.writeString, Value.writeChar] using hmember

/-- The rows of a body that is an object with nothing but an array of them. -/
theorem read_rowsShape {n : Node} (hn : n.meaning? = some (.object [("filters", .array values)]))
    (hdepth : (Value.array values).depth ≤ Node.maxLevels - 1) :
    rowsShape.read n = .ok (FilterRow.ofValues values) := by
  obtain ⟨m, rfl, hm⟩ := Node.meaning?_eq_member_iff.mp hn
  obtain ⟨ns, rfl, hns⟩ := Node.meaning?_eq_array_iff.mp hm
  -- one level for the object and one for the array
  have hkeep : Node.keepItems (Node.maxLevels - 2) ns = some values := by
    refine (Node.keepItems_eq_some_iff ns _ values).mpr ⟨hns, ?_⟩
    rw [Value.depth] at hdepth
    omega
  have hread : readFilters (.array ns true) = .ok (FilterRow.ofValues values) := by
    rw [readFilters, hkeep]
    rfl
  simp only [Shape.read, Shape.readMembers, Shape.readMember, rowsShape, List.find?_cons,
    decide_true, Option.isSome_none, Bool.false_eq_true, if_false, if_true, hread, bind,
    Except.bind]
  rfl

theorem compile_post {r : Request} (htext : (Value.array values).IsText text.toList)
    (hdepth : (Value.array values).depth ≤ Node.maxLevels - 1)
    (hpost : r.Posts "/api/v1/traceql" ("\x7b\"filters\": " ++ text ++ "\x7d")) :
    compile r =
      .ok (.object [("query", .string (Query.compile (FilterRow.ofValues values)))]) := by
  obtain ⟨n, hn, htake⟩ := takeBody_post hpost (isText_body htext)
  rw [compile, htake, read_rowsShape hn hdepth]
  rfl

end Service

/-! ### Both -/

namespace Query

/-- The query is read from an answer in JSON, whatever its characters are. -/
theorem ofText?_answer (query : String) {answer : String} {blanks : List Char}
    (hblanks : Token.IsBlank blanks)
    (h : answer.toList = (Value.object [("query", .string query)]).write ++ blanks) :
    Value.ofText? answer = some (.object [("query", .string query)]) := by
  refine Value.IsText.ofText? ?_ ?_
  · rw [h]
    exact (Value.isText_write _ rfl).append_blank hblanks
  · show 1 + max 0 0 ≤ 127
    omega

/-- **Both front ends compile the same rows into the same query**, whatever the items of the array
are. -/
theorem frontEnds_agree {options : CommandLine.Given} {format : Option OutputFormat}
    {s : Service} {x : Circumstances} {r : Request} {explain : Request → String}
    (htext : (Value.array values).IsText text.toList) (hdepth : (Value.array values).depth ≤ 126)
    (hsource : match file with
      | none => w.input = text.toUTF8
      | some path => w.files.readText path = .ok text)
    (hsettings : ∀ path ∈ config, ∃ s, Settings.loadWith w.files w.environment path = .ok s)
    (hoptions : options.Perm ((file.map ("file", ·)).toList ++ (config.map ("config", ·)).toList ++
      (format.map fun f => ("format", f.name)).toList))
    (hpost : r.Posts "/api/v1/traceql" ("\x7b\"filters\": " ++ text ++ "\x7d")) :
    let query := compile (FilterRow.ofValues values)
    let outcome := CommandLine.run ("traceql" :: options.map CommandLine.optionWord) w
    let response := s.respond x r explain
    outcome.status = 0 ∧ response.status = 200 ∧
      (match format.getD .table with
        | .table => outcome.output = query ++ "\n"
        | .json => Value.ofText? outcome.output = some (.object [("query", .string query)])) ∧
      response.body.bind (fun v => Value.ofText? v.render) =
        some (.object [("query", .string query)]) := by
  intro query outcome response
  have hsource' : Command.source w file = .ok text := by
    rcases file with - | path
    · rw [Command.source, hsource, Text.Marks.fromUTF8?_toUTF8]
    · rw [Command.source, hsource]
      rfl
  obtain ⟨hstatus, houtput⟩ := CommandLine.run_traceql htext (Nat.le_succ_of_le hdepth) hsource'
    hsettings hoptions
  have hresponse :
      response = Service.conclude x.bits (.ok (.object [("query", .string query)])) := by
    show s.respond x r explain = _
    rw [Service.respond_post (e := .compile) hpost (by decide), Service.serve,
      Service.compile_post htext hdepth hpost]
    rfl
  refine ⟨hstatus, by rw [hresponse]; rfl, ?_, ?_⟩
  · rw [houtput]
    rcases format.getD .table with - | -
    · rfl
    · refine ofText?_answer query (Token.isBlank_singleton (.inr (.inl rfl))) ?_
      rw [String.toList_append, Value.render, String.toList_ofList]
      rfl
  · rw [hresponse, Service.conclude, Option.bind_some]
    refine ofText?_answer query Token.isBlank_nil ?_
    rw [Value.render, String.toList_ofList, List.append_nil]

/-- A row whose value ends its quotes and holds a line break, among items that are no rows. -/
theorem frontEnds_agree_odd :
    let values : List Value := [
      .object [("tag", .string "name"), ("operator", .string "="), ("value", .string "\"\n"),
        ("id", .string "a"), ("id", .string "b")],
      .array [.array [], .null], .int (-5), .string "\x00"]
    let text := (Value.array values).render
    let files : FileTree :=
      ⟨[(["w", "rows"], text.toUTF8), (["w", "c"], "split = [7]".toUTF8)], [], ["w"]⟩
    let w : World := ⟨files, fun _ => none, none, .empty, ⟨0, 0⟩⟩
    let r : Request := ⟨"POST", "/api/v1/traceql", some "application/json",
      ("\x7b\"filters\": " ++ text ++ "\x7d").toUTF8⟩
    let query := "\x7bname=\"\"\n\"\x7d"
    let explain : Request → String := fun _ => ": expected value at line 1 column 1"
    let response := Service.respond ⟨50⟩ ⟨⟨0, 0⟩, 0, 0⟩ r explain
    (CommandLine.run ["traceql", "--format=json", "--config=c", "--file=rows"] w).status = 0 ∧
      response.status = 200 ∧
      Value.ofText?
        (CommandLine.run ["traceql", "--format=json", "--config=c", "--file=rows"] w).output =
          some (.object [("query", .string query)]) ∧
      response.body.bind (fun v => Value.ofText? v.render) =
        some (.object [("query", .string query)]) := by
  intro values text files w r query explain response
  have htext : (Value.array values).IsText text.toList := Value.isText_render (by decide)
  have hdepth : (Value.array values).depth ≤ 126 := by decide
  have hfile : w.files.readText "rows" = .ok text := by
    have hread : w.files.read "rows" = .ok text.toUTF8 := by rfl
    rw [FileTree.readText, hread]
    simp only [bind, Except.bind, Text.Marks.fromUTF8?_toUTF8]
  have hsettings : ∀ path ∈ some "c", ∃ s,
      Settings.loadWith w.files w.environment path = .ok s := by
    rintro _ ⟨⟩
    exact ⟨{ Settings.standard with cap := 7 }, by decide +kernel⟩
  have hoptions : [("format", "json"), ("config", "c"), ("file", "rows")].Perm
      [("file", "rows"), ("config", "c"), ("format", "json")] := by decide
  have hpost : r.Posts "/api/v1/traceql" ("\x7b\"filters\": " ++ text ++ "\x7d") :=
    ⟨rfl, rfl, by decide +kernel, rfl, by decide +kernel⟩
  have hquery : compile (FilterRow.ofValues values) = query := by decide +kernel
  have hagree := @frontEnds_agree text values w (some "rows") (some "c") _ (some .json) ⟨50⟩
    ⟨⟨0, 0⟩, 0, 0⟩ r explain htext hdepth hfile hsettings hoptions hpost
  rw [hquery] at hagree
  exact hagree

end Query

end QueryPrep
