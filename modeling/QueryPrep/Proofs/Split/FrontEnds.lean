import QueryPrep.Proofs.Command.Line
import QueryPrep.Proofs.Command.Run
import QueryPrep.Proofs.Http.Post
import QueryPrep.Proofs.Json.Record
import QueryPrep.Proofs.Split.Outcome

/-!
# Ranges are split alike by both front ends

The texts of an order come to the command line as the values of options and to the service as the
members of an object. Either way they make the same order, whatever the texts are
(`CommandLine.read_split`, `Service.takeBody_metric`), and an order comes to one outcome under a
clock and a cap. What remains is that both front ends tell the same about it: the chunks, that the
range cannot be split, or what is wrong with the order (`corresponds_of_outcome`).

Main result: for metric and for log query ranges the outcome of the command and the response of the
service correspond (`splitFrontEnds_agree`).
-/

namespace QueryPrep

open QueryPrep.Json

/-! ### Telling the same -/

/-- What the command line tells about a split in JSON, behind what was complained of before. -/
def Outcome.Reports (o : Outcome) (complaint : String) : SplitOutcome → Prop
  | .ok (.ok cs) => o.status = 0 ∧ o.output = (Chunk.listToValue cs).render ++ "\n"
  | .ok (.error _) => o.status = 2 ∧ o.output = "null\n"
  | .error e => o.status = 1 ∧
      o.errorOutput = complaint ++ "Error: " ++ (CommandError.ofOrder e).message ++ "\n"

/-- What the service tells about a split. -/
def Service.splitAnswer (split : SplitOutcome) : Except ServiceError Value :=
  match split with
  | .ok split => .ok (SplitResult.ofChunks split.toOption).toValue
  | .error e => .error (.ofOrder e)

/-- The outcome of a command and the response of the service to the same order of a split. -/
structure Corresponds (start stop : String) (clock : Clock) (complaint : String) (o : Outcome)
    (r : Response) : Prop where
  settled : (∃ cs, o.status = 0 ∧ Value.ofText? o.output = some (Chunk.listToValue cs)) ∨
    (o.status = 2 ∧ o.output = "null\n") ∨ o.status = 1
  chunks : ∀ cs, (o.status = 0 ∧ Value.ofText? o.output = some (Chunk.listToValue cs)) ↔
    r.status = 200 ∧ r.body = some (.object
      [("chunks", Chunk.listToValue cs), ("chunk_count", .int cs.length)])
  refused : (o.status = 2 ∧ o.output = "null\n") ↔
    r.status = 200 ∧ r.body = some (.object [("chunks", .null), ("chunk_count", .int 0)])
  failed : o.status = 1 ↔ r.status = 400
  reversed : o.status = 1 → RangeOrder.IsReversed start stop clock → ∃ message id,
    r.body = some (.object [
      ("error", .object [("code", .string "VALIDATION_ERROR"), ("message", .string message)]),
      ("request_id", .string id)])
  unreadable : o.status = 1 → ¬ RangeOrder.IsReversed start stop clock → ∃ (e : TimeError) (id : _),
    o.errorOutput = complaint ++ "Error: " ++ e.message ++ "\n" ∧
    r.body = some (.object [
      ("error", .object [("code", .string "INVALID_SPLIT_REQUEST"),
        ("message", .string ("Invalid split request: " ++ e.message))]),
      ("request_id", .string id)])

section

variable {start stop : String} {clock : Clock} {complaint : String} {o : Outcome} {bits : Nat}

theorem corresponds_of_chunks {cs : List Chunk} (ho : o.Reports complaint (.ok (.ok cs)))
    (hfits : ∀ c ∈ cs, c.Fits) : Corresponds start stop clock complaint o
      (Service.conclude bits (Service.splitAnswer (.ok (.ok cs)))) := by
  obtain ⟨hstatus, houtput⟩ := ho
  have hread : ∀ ds, Value.ofText? o.output = some (Chunk.listToValue ds) ↔ ds = cs := by
    intro ds
    rw [houtput]
    exact Chunk.ofText?_render_iff hfits
  have hone : o.status ≠ 1 := by simp [hstatus]
  have htwo : o.status ≠ 2 := by simp [hstatus]
  have hfailed : (Service.conclude bits (Service.splitAnswer (.ok (.ok cs)))).status ≠ 400 := by
    simp [Service.conclude, Service.splitAnswer]
  refine {
    settled := .inl ⟨cs, hstatus, (hread cs).mpr rfl⟩
    chunks := ?_
    refused := ⟨fun h => absurd h.1 htwo, ?_⟩
    failed := ⟨fun h => absurd h hone, fun h => absurd h hfailed⟩
    reversed := fun h => absurd h hone
    unreadable := fun h => absurd h hone }
  · intro ds
    rw [hread]
    constructor
    · rintro ⟨-, rfl⟩
      exact ⟨rfl, rfl⟩
    · rintro ⟨-, h⟩
      have hmembers := Value.object.inj (Option.some.inj h)
      have heq : Chunk.listToValue cs = Chunk.listToValue ds :=
        (Prod.mk.inj (List.cons.inj hmembers).1).2
      exact ⟨hstatus, (Chunk.listToValue_inj.mp heq).symm⟩
  · rintro ⟨-, ⟨⟩⟩

theorem corresponds_of_refusal {refusal : Refusal}
    (ho : o.Reports complaint (.ok (.error refusal))) : Corresponds start stop clock complaint o
      (Service.conclude bits (Service.splitAnswer (.ok (.error refusal)))) := by
  obtain ⟨hstatus, houtput⟩ := ho
  have hzero : o.status ≠ 0 := by simp [hstatus]
  have hone : o.status ≠ 1 := by simp [hstatus]
  have hfailed :
      (Service.conclude bits (Service.splitAnswer (.ok (.error refusal)))).status ≠ 400 := by
    simp [Service.conclude, Service.splitAnswer]
  refine {
    settled := .inr (.inl ⟨hstatus, houtput⟩)
    chunks := fun ds => ⟨fun h => absurd h.1 hzero, ?_⟩
    refused := ⟨fun _ => ⟨rfl, rfl⟩, fun _ => ⟨hstatus, houtput⟩⟩
    failed := ⟨fun h => absurd h hone, fun h => absurd h hfailed⟩
    reversed := fun h => absurd h hone
    unreadable := fun h => absurd h hone }
  rintro ⟨-, ⟨⟩⟩

theorem corresponds_of_error {e : OrderError} (ho : o.Reports complaint (.error e))
    (hreversed : RangeOrder.IsReversed start stop clock ↔ ∃ a b, e = .reversed a b) :
    Corresponds start stop clock complaint o
      (Service.conclude bits (Service.splitAnswer (.error e))) := by
  obtain ⟨hstatus, herror⟩ := ho
  have hzero : o.status ≠ 0 := by simp [hstatus]
  have htwo : o.status ≠ 2 := by simp [hstatus]
  have hfailed : (Service.conclude bits (Service.splitAnswer (.error e))).status = 400 := by
    cases e <;> rfl
  have hgiven : (Service.conclude bits (Service.splitAnswer (.error e))).status ≠ 200 := by
    simp [hfailed]
  refine {
    settled := .inr (.inr hstatus)
    chunks := fun ds => ⟨fun h => absurd h.1 hzero, fun h => absurd h.1 hgiven⟩
    refused := ⟨fun h => absurd h.1 htwo, fun h => absurd h.1 hgiven⟩
    failed := ⟨fun _ => hfailed, fun _ => hstatus⟩
    reversed := ?_
    unreadable := ?_ }
  · intro _ hrev
    obtain ⟨a, b, rfl⟩ := hreversed.mp hrev
    exact ⟨_, _, rfl⟩
  · intro _ hrev
    cases e with
    | time e => exact ⟨e, _, herror, rfl⟩
    | reversed a b => exact absurd (hreversed.mpr ⟨a, b, rfl⟩) hrev

/-- **What both front ends tell about one outcome corresponds.** -/
theorem corresponds_of_outcome {split : SplitOutcome} (ho : o.Reports complaint split)
    (hfits : ∀ cs, split = .ok (.ok cs) → ∀ c ∈ cs, c.Fits)
    (hreversed : RangeOrder.IsReversed start stop clock ↔ ∃ a b, split = .error (.reversed a b)) :
    Corresponds start stop clock complaint o
      (Service.conclude bits (Service.splitAnswer split)) := by
  rcases split with e | refusal | cs
  · exact corresponds_of_error ho (by simpa using hreversed)
  · exact corresponds_of_refusal ho
  · exact corresponds_of_chunks ho (hfits cs rfl)

end

/-! ### The commands -/

namespace CommandLine

variable {start stop step span : String} {config : Option String} {options : Given}

theorem read_split (hoptions : options.Perm ((config.map ("config", ·)).toList ++
      [("start", start), ("end", stop), ("step", step), ("max-chunk", span)]))
    (hconfig : config ≠ some "") :
    read ("split" :: "-f" :: "json" :: options.map optionWord) =
      some (.invoke ⟨.split (.ofTexts start stop step span), config, .json⟩) := by
  obtain ⟨hread, hgiven⟩ := readOptions_texts hoptions (by simp) (by simp) hconfig
  rw [read_name rfl rfl hread]
  simp only [invocation, rangeOf, hgiven]
  rcases config with - | path <;> rfl

theorem read_splitLogs (hoptions : options.Perm ((config.map ("config", ·)).toList ++
      [("start", start), ("end", stop), ("chunk", span)])) (hconfig : config ≠ some "") :
    read ("split-logs" :: "-f" :: "json" :: options.map optionWord) =
      some (.invoke ⟨.splitLogs (.ofTexts start stop span), config, .json⟩) := by
  obtain ⟨hread, hgiven⟩ := readOptions_texts hoptions (by simp) (by simp) hconfig
  rw [read_name rfl rfl hread]
  simp only [invocation, rangeOf, hgiven]
  rcases config with - | path <;> rfl

end CommandLine

namespace Invocation

variable {i : Invocation} {w : World} {s : Settings}

/-- A run reports what its command comes to. -/
theorem reports_of_carryOut {split : SplitOutcome} (hs : i.settingsOf w = .ok s)
    (hcarry : ∀ files, ∃ events, i.command.carryOut { w with files } s.cap i.format =
      (split.mapError .ofOrder).map (Command.answerSplit .json s.cap files events)) :
    (i.run w).Reports (s.complaint w) split := by
  obtain ⟨files, logging, -, hrun⟩ := run_of_settings hs
  obtain ⟨events, hcarry⟩ := hcarry files
  rw [hrun, hcarry]
  rcases split with e | refusal | cs <;> exact ⟨rfl, rfl⟩

theorem reports_split (order : MetricOrder) {config : Option String}
    (hs : (Invocation.mk (.split order) config .json).settingsOf w = .ok s) :
    ((Invocation.mk (.split order) config .json).run w).Reports (s.complaint w)
      (order.outcome w.clock s.cap) := by
  refine reports_of_carryOut hs fun files => ?_
  rw [Command.carryOut, MetricOrder.outcome]
  rcases order.resolve w.clock with e | q
  · exact ⟨fun _ => [], rfl⟩
  · exact ⟨_, rfl⟩

theorem reports_splitLogs (order : LogOrder) {config : Option String}
    (hs : (Invocation.mk (.splitLogs order) config .json).settingsOf w = .ok s) :
    ((Invocation.mk (.splitLogs order) config .json).run w).Reports (s.complaint w)
      (order.outcome w.clock s.cap) := by
  refine reports_of_carryOut hs fun files => ?_
  rw [Command.carryOut, LogOrder.outcome]
  rcases order.resolve w.clock with e | q
  · exact ⟨fun _ => [], rfl⟩
  · exact ⟨_, rfl⟩

end Invocation

/-! ### The service -/

namespace OrderDraft

/-- The place of a field of an order. -/
def place (name : String) (d : OrderDraft) : Option Quantity :=
  if name = "start" then d.start
  else if name = "end" then d.stop
  else if name = "step" then d.step
  else d.span

/-- The quantity that a text is. -/
def ofText? : Value → Option Quantity
  | .string s => some (.text s)
  | _ => none

theorem ofNode_of_ofText? {n : Node} {v : Value} {q : Quantity} (hn : n.meaning? = some v)
    (hv : ofText? v = some q) : Quantity.ofNode n = .ok q := by
  cases v with
  | string s =>
      obtain rfl := Node.meaning?_eq_string_iff.mp hn
      obtain rfl := Option.some.inj hv
      rfl
  | _ => cases hv

/-- The fields of an order have places of their own. -/
theorem independent_fields {name : String}
    (hname : name ≠ "start" ∧ name ≠ "end" ∧ name ≠ "step") :
    Shape.Independent [startField, stopField, stepField, spanField name] place ofText? := by
  obtain ⟨hstart, hstop, hstep⟩ := hname
  -- the name of the span is the one in which orders differ
  have hspan : ∀ d, place name d = d.span := fun d => by simp [place, hstart, hstop, hstep]
  constructor
  · intro f hf d
    simp only [List.mem_cons, List.not_mem_nil, or_false] at hf
    rcases hf with rfl | rfl | rfl | rfl
    · rfl
    · rfl
    · rfl
    · exact congrArg Option.isSome (hspan d).symm
  · intro f hf n v q d hn hv
    have hq := ofNode_of_ofText? hn hv
    simp only [List.mem_cons, List.not_mem_nil, or_false] at hf
    rcases hf with rfl | rfl | rfl | rfl
    · refine ⟨{ d with start := some q }, by simp [startField, hq], rfl, ?_⟩
      simp [startField, stopField, stepField, spanField, place, hstart, hstop, hstep]
    · refine ⟨{ d with stop := some q }, by simp [stopField, hq], rfl, ?_⟩
      simp [startField, stopField, stepField, spanField, place, hstart, hstop, hstep]
    · refine ⟨{ d with step := some q }, by simp [stepField, hq], rfl, ?_⟩
      simp [startField, stopField, stepField, spanField, place, hstart, hstop, hstep]
    · refine ⟨{ d with span := some q }, by simp [spanField, hq], hspan _, ?_⟩
      simp [startField, stopField, stepField, spanField, place]

end OrderDraft

namespace Service

open OrderDraft

variable {start stop step span text path : String} {members : List (String × Value)} {r : Request}

/-- The order in a body that is an object of texts. -/
theorem takeBody_order {α : Type} {shape : Shape OrderDraft α} (texts : List (String × String))
    (hfields : Shape.Independent shape.fields place ofText?) (hempty : shape.empty = .empty)
    (hnodup : (texts.map Prod.fst).Nodup)
    (hmembers : members.Perm (texts.map fun t => (t.1, .string t.2)))
    (htext : (Value.object members).IsText text.toList) (hpost : r.Posts path text) :
    ∃ d, (∀ f ∈ shape.fields, ∀ s, (f.name, s) ∈ texts → place f.name d = some (.text s)) ∧
      takeBody shape.read r = (shape.finishDraft d).mapError fun f => .body (.ofFault f) := by
  obtain ⟨n, hn, htake⟩ := takeBody_post hpost htext
  have hkeys : (members.map Prod.fst).Nodup := by
    rw [(hmembers.map Prod.fst).nodup_iff, List.map_map]
    exact hnodup
  have hconvert : ∀ f ∈ shape.fields, ∀ v, (f.name, v) ∈ members → (ofText? v).isSome = true := by
    intro f _ v hv
    obtain ⟨t, -, ht⟩ := List.mem_map.mp (hmembers.mem_iff.mp hv)
    obtain ⟨-, rfl⟩ := Prod.mk.inj ht
    rfl
  have hnone : ∀ f ∈ shape.fields, place f.name shape.empty = none := by
    intro f _
    simp [hempty, place, OrderDraft.empty]
  obtain ⟨d, hread, hplace⟩ := Shape.read_object hfields hn hkeys hconvert hnone
  refine ⟨d, fun f hf s hs => ?_, by rw [htake, hread]⟩
  exact hplace f hf (.string s) (hmembers.mem_iff.mpr (List.mem_map.mpr ⟨(f.name, s), hs, rfl⟩))

theorem takeBody_metric (hmembers : members.Perm [("start", .string start), ("end", .string stop),
      ("step", .string step), ("max_chunk", .string span)])
    (htext : (Value.object members).IsText text.toList) (hpost : r.Posts path text) :
    takeBody MetricOrder.shape.read r = .ok (.ofTexts start stop step span) := by
  have hfields : Shape.Independent MetricOrder.shape.fields place ofText? :=
    independent_fields (by decide)
  obtain ⟨d, hplace, htake⟩ := takeBody_order
    [("start", start), ("end", stop), ("step", step), ("max_chunk", span)]
    hfields rfl (by simp) hmembers htext hpost
  obtain ⟨hstart, hstop, hstep, hspan⟩ : d.start = some (.text start) ∧
      d.stop = some (.text stop) ∧ d.step = some (.text step) ∧ d.span = some (.text span) := by
    simpa [MetricOrder.shape, startField, stopField, stepField, spanField, place] using hplace
  rw [htake, Shape.finishDraft]
  simp [MetricOrder.shape, hstart, hstop, hstep, hspan, Except.mapError, MetricOrder.ofTexts]

theorem takeBody_log (hmembers : members.Perm [("start", .string start), ("end", .string stop),
      ("chunk", .string span)])
    (htext : (Value.object members).IsText text.toList) (hpost : r.Posts path text) :
    takeBody LogOrder.shape.read r = .ok (.ofTexts start stop span) := by
  have hfields : Shape.Independent LogOrder.shape.fields place ofText? :=
    (independent_fields (by decide)).of_subset fun _ => LogOrder.mem_fields_of_mem_shape
  obtain ⟨d, hplace, htake⟩ := takeBody_order [("start", start), ("end", stop), ("chunk", span)]
    hfields rfl (by simp) hmembers htext hpost
  obtain ⟨hstart, hstop, hspan⟩ : d.start = some (.text start) ∧ d.stop = some (.text stop) ∧
      d.span = some (.text span) := by
    simpa [LogOrder.shape, startField, stopField, spanField, place] using hplace
  rw [htake, Shape.finishDraft]
  simp [LogOrder.shape, hstart, hstop, hspan, Except.mapError, LogOrder.ofTexts]

variable {s : Service} {x : Circumstances} {explain : Request → String}

theorem respond_split (hmembers : members.Perm [("start", .string start), ("end", .string stop),
      ("step", .string step), ("max_chunk", .string span)])
    (htext : (Value.object members).IsText text.toList) (hpost : r.Posts "/api/v1/split" text) :
    s.respond x r explain = conclude x.bits
      (splitAnswer ((MetricOrder.ofTexts start stop step span).outcome x.clock s.cap)) := by
  rw [respond_post (e := .split) hpost (by decide), serve, split,
    takeBody_metric hmembers htext hpost, MetricOrder.outcome]
  simp only [bind, Except.bind]
  rcases (MetricOrder.ofTexts start stop step span).resolve x.clock with (e | _) | q <;> rfl

theorem respond_splitLogs (hmembers : members.Perm [("start", .string start),
      ("end", .string stop), ("chunk", .string span)])
    (htext : (Value.object members).IsText text.toList)
    (hpost : r.Posts "/api/v1/split/logs" text) :
    s.respond x r explain = conclude x.bits
      (splitAnswer ((LogOrder.ofTexts start stop span).outcome x.clock s.cap)) := by
  rw [respond_post (e := .splitLogs) hpost (by decide), serve, splitLogs,
    takeBody_log hmembers htext hpost, LogOrder.outcome]
  simp only [bind, Except.bind]
  rcases (LogOrder.ofTexts start stop span).resolve x.clock with (e | _) | q <;> rfl

end Service

/-! ### Both -/

/-- **Both front ends split the same texts alike**, for metric and for log query ranges. -/
theorem splitFrontEnds_agree {w : World} {x : Circumstances} {settings : Settings}
    {service : Service} {explain : Request → String} {config : Option String}
    {start stop step span : String}
    (hsettings : match config with
      | none => settings = Settings.search w.files w.environment w.settingsHome
      | some path => Settings.loadWith w.files w.environment path = .ok settings)
    (hcap : service.cap = settings.cap) (hclock : x.clock = w.clock)
    (hstart : Millis.Fits w.clock.atStart) (hstop : Millis.Fits w.clock.atStop) :
    (∀ (options : CommandLine.Given) (members : List (String × Value)) (text : String)
        (r : Request),
      options.Perm ((config.map ("config", ·)).toList ++
        [("start", start), ("end", stop), ("step", step), ("max-chunk", span)]) →
      members.Perm [("start", .string start), ("end", .string stop), ("step", .string step),
        ("max_chunk", .string span)] →
      (Value.object members).IsText text.toList → r.Posts "/api/v1/split" text →
      Corresponds start stop w.clock (settings.complaint w)
        (CommandLine.run ("split" :: "-f" :: "json" :: options.map CommandLine.optionWord) w)
        (service.respond x r explain)) ∧
    ∀ (options : CommandLine.Given) (members : List (String × Value)) (text : String) (r : Request),
      options.Perm ((config.map ("config", ·)).toList ++
        [("start", start), ("end", stop), ("chunk", span)]) →
      members.Perm [("start", .string start), ("end", .string stop), ("chunk", .string span)] →
      (Value.object members).IsText text.toList → r.Posts "/api/v1/split/logs" text →
      Corresponds start stop w.clock (settings.complaint w)
        (CommandLine.run ("split-logs" :: "-f" :: "json" :: options.map CommandLine.optionWord) w)
        (service.respond x r explain) := by
  have hconfig : config ≠ some "" := by
    rintro rfl
    exact Settings.ne_empty_of_loadWith hsettings rfl
  have hfound : ∀ command, (Invocation.mk command config .json).settingsOf w = .ok settings := by
    intro command
    rcases config with - | path
    · exact congrArg Except.ok hsettings.symm
    · exact hsettings
  constructor
  · intro options members text r hoptions hmembers htext hpost
    have hreports := Invocation.reports_split (.ofTexts start stop step span) (hfound _)
    rw [Service.respond_split hmembers htext hpost, hclock, hcap, CommandLine.run,
      CommandLine.read_split hoptions hconfig]
    refine corresponds_of_outcome hreports (fun cs => MetricOrder.fits_of_outcome) ?_
    simp only [MetricOrder.outcome_eq_reversed_iff]
    exact RangeOrder.isReversed_iff
  · intro options members text r hoptions hmembers htext hpost
    have hreports := Invocation.reports_splitLogs (.ofTexts start stop span) (hfound _)
    rw [Service.respond_splitLogs hmembers htext hpost, hclock, hcap, CommandLine.run,
      CommandLine.read_splitLogs hoptions hconfig]
    -- contiguous chunks end where the range does, so they are in range because the clock is
    refine corresponds_of_outcome hreports
      (fun cs => LogOrder.fits_of_outcome rfl hstart hstop) ?_
    simp only [LogOrder.outcome_eq_reversed_iff]
    exact RangeOrder.isReversed_iff

/-- A range that is split under a cap of seven, and one whose span is no duration. -/
theorem splitFrontEnds_agree_minute :
    let clock : Clock := ⟨0, 60000⟩
    let w : World := ⟨⟨[(["c"], "split = [7]".toUTF8)], [], []⟩, fun _ => none, none, .empty, clock⟩
    let complaint := Settings.complaint { Settings.standard with cap := 7 } w
    let explain : Request → String := fun _ => ": expected value at line 1 column 1"
    let metric := (Value.object [("step", .string "10s"), ("max_chunk", .string "25s"),
      ("end", .string "now"), ("start", .string "0")]).render
    let log := (Value.object [("chunk", .string "\"=\n"), ("start", .string "0"),
      ("end", .string "now")]).render
    Corresponds "0" "now" clock complaint
      (CommandLine.run ["split", "-f", "json", "--step=10s", "--end=now", "--config=c",
        "--max-chunk=25s", "--start=0"] w)
      (Service.respond ⟨7⟩ ⟨clock, 0, 0⟩
        ⟨"POST", "/api/v1/split", some "application/json", metric.toUTF8⟩ explain) ∧
    Corresponds "0" "now" clock complaint
      (CommandLine.run ["split-logs", "-f", "json", "--chunk=\"=\n", "--config=c", "--end=now",
        "--start=0"] w)
      (Service.respond ⟨7⟩ ⟨clock, 0, 0⟩
        ⟨"POST", "/api/v1/split/logs", some "application/json", log.toUTF8⟩ explain) := by
  intro clock w complaint explain metric log
  have hsettings : Settings.loadWith w.files w.environment "c" =
      .ok { Settings.standard with cap := 7 } := by decide +kernel
  have hmetric := (@splitFrontEnds_agree w ⟨clock, 0, 0⟩ _ ⟨7⟩ explain (some "c") "0" "now" "10s"
    "25s" hsettings rfl rfl (by decide) (by decide)).1
  have hlog := (@splitFrontEnds_agree w ⟨clock, 0, 0⟩ _ ⟨7⟩ explain (some "c") "0" "now" ""
    "\"=\n" hsettings rfl rfl (by decide) (by decide)).2
  constructor
  · have htexts : [("step", "10s"), ("max_chunk", "25s"), ("end", "now"), ("start", "0")].Perm
        [("start", "0"), ("end", "now"), ("step", "10s"), ("max_chunk", "25s")] := by decide
    exact hmetric [("step", "10s"), ("end", "now"), ("config", "c"), ("max-chunk", "25s"),
      ("start", "0")] _ metric _ (by decide) (htexts.map fun t => (t.1, Value.string t.2))
      (Value.isText_render (by decide)) ⟨rfl, rfl, by decide +kernel, rfl, by decide +kernel⟩
  · have htexts : [("chunk", "\"=\n"), ("start", "0"), ("end", "now")].Perm
        [("start", "0"), ("end", "now"), ("chunk", "\"=\n")] := by decide
    exact hlog [("chunk", "\"=\n"), ("config", "c"), ("end", "now"), ("start", "0")] _ log _
      (by decide) (htexts.map fun t => (t.1, Value.string t.2))
      (Value.isText_render (by decide)) ⟨rfl, rfl, by decide +kernel, rfl, by decide +kernel⟩

end QueryPrep
