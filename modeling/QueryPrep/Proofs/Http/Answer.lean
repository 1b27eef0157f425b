import QueryPrep.Proofs.Http.Post
import QueryPrep.Proofs.Split.Order
import QueryPrep.Proofs.Split.Outcome

/-!
# Answers to posts

A post is answered in one of two shapes: with a result (`Response.Succeeds`), or with the envelope
of an error (`Response.Fails`), whose code tells at which stage the request has failed. There are
two such stages: the body is taken (`Service.Taken`), and an order in it is resolved (`OrderFault`).
A range that cannot be split has a result nevertheless. `Service.Course` tells the course of a
request, once for all endpoints that take posts.

Main result: for every endpoint, every content type and all bytes of a body, the answer has one of
the two shapes, its code is the one of the first stage that has failed, and its body can be read as
JSON (`Service.respond_settled`). This is so whatever the reader of JSON has to say about a body
that it rejects; its words stand at the end of the message.
-/

namespace QueryPrep

open QueryPrep.Json

/-! ### The two shapes -/

/-- The results of endpoints that take posts. A range that is split has chunks, at most as many as
the cap, and is told their number. -/
inductive Endpoint.IsResult (cap : Nat) : Endpoint → Value → Prop where
  | chunks {e : Endpoint} (he : e = .split ∨ e = .splitLogs) (cs : List Chunk)
      (hcap : cs.length ≤ cap) (hfits : ∀ c ∈ cs, c.Fits) :
      IsResult cap e (.object [("chunks", Chunk.listToValue cs), ("chunk_count", .int cs.length)])
  | refused {e : Endpoint} (he : e = .split ∨ e = .splitLogs) :
      IsResult cap e (.object [("chunks", .null), ("chunk_count", .int 0)])
  | query (text : String) : IsResult cap .compile (.object [("query", .string text)])

namespace Endpoint.IsResult

variable {cap : Nat} {e : Endpoint} {v : Value}

theorem isPlain (h : e.IsResult cap v) (hcap : cap < UInt64.size) : v.isPlain = true := by
  cases h with
  | chunks _ cs hle hfits =>
      have hcount : (Value.int cs.length).isPlain = true := by
        have hsize : UInt64.size = 2 ^ 64 := rfl
        simp only [Value.int, Value.isPlain, Bool.and_eq_true, decide_eq_true_eq]
        omega
      simp [Value.isPlain, Value.membersArePlain, Chunk.isPlain_listToValue hfits, hcount]
  | refused => rfl
  | query text => rfl

theorem depth_le (h : e.IsResult cap v) : v.depth ≤ Node.maxLevels := by
  cases h with
  | chunks _ cs _ _ =>
      have hchunks := Chunk.depth_listToValue_le cs
      simp only [Value.depth, Value.membersDepth, Value.int, Node.maxLevels]
      omega
  | refused => decide
  | query text => exact show 1 ≤ 127 by decide

end Endpoint.IsResult

namespace Response

/-- The response has a result. -/
structure Succeeds (o : Response) (cap : Nat) (e : Endpoint) : Prop where
  status : o.status = 200
  body : ∃ v, o.body = some v ∧ e.IsResult cap v

/-- The response is the envelope of an error, with an identifier of the request. -/
structure Fails (o : Response) (code message : String) : Prop where
  status : o.status ∈ [400, 413, 415, 422]
  body : ∃ id : String, Uuid.IsVersion4 id.toList ∧ o.body = some (.object [
    ("error", .object [("code", .string code), ("message", .string message)]),
    ("request_id", .string id)])

end Response

/-! ### Taking bodies -/

theorem BodyRejection.eq_of_status_eq {why why' : BodyRejection} (h : why.status = why'.status) :
    why = why' := by
  cases why <;> cases why' <;> simp [status] at h ⊢

namespace Service

/-- What a body holds. -/
inductive Content where
  | order (range : RangeOrder) (spans : List Quantity)
  | rows (rows : List FilterRow)
deriving DecidableEq

/-- How an endpoint reads a body. -/
def reader : Endpoint → Node → Except Fault Content
  | .split, n => (fun o => .order o.range [o.step, o.maxSpan]) <$> MetricOrder.shape.read n
  | .splitLogs, n => (fun o => .order o.range [o.span]) <$> LogOrder.shape.read n
  | _, n => .rows <$> rowsShape.read n

/-- How a body is taken: its type is looked at, then its size, then what is in it. -/
inductive Taken {α : Type} (reader : Node → Except Fault α) (r : Request) :
    Except ServiceError α → Prop where
  | mediaType (h : ¬ MediaType.AnnouncesJson r.contentType) :
      Taken reader r (.error (.body .mediaType))
  | tooLarge (htype : MediaType.AnnouncesJson r.contentType) (h : maxBody < r.body.size) :
      Taken reader r (.error (.body .tooLarge))
  | fault (htype : MediaType.AnnouncesJson r.contentType) (hsize : r.body.size ≤ maxBody)
      {f : Fault} (h : reader (Document.ofMarks (.decode r.body)).root = .error f) :
      Taken reader r (.error (.body (.ofFault f)))
  | read (htype : MediaType.AnnouncesJson r.contentType) (hsize : r.body.size ≤ maxBody) {a : α}
      (h : reader (Document.ofMarks (.decode r.body)).root = .ok a) : Taken reader r (.ok a)

variable {α β : Type} {r : Request}

theorem taken_takeBody (reader : Node → Except Fault α) (r : Request) :
    Taken reader r (takeBody reader r) := by
  rw [takeBody]
  by_cases htype : MediaType.AnnouncesJson r.contentType
  · rw [if_neg (not_not_intro htype)]
    by_cases hsize : maxBody < r.body.size
    · rw [if_pos hsize]
      exact .tooLarge htype hsize
    · rw [if_neg hsize]
      rcases hread : reader (Document.ofMarks (.decode r.body)).root with f | a
      · exact .fault htype (Nat.not_lt.mp hsize) hread
      · exact .read htype (Nat.not_lt.mp hsize) hread
  · rw [if_pos htype]
    exact .mediaType htype

theorem exists_of_takeBody_eq_ok {reader : Node → Except Fault α} {a : α}
    (h : takeBody reader r = .ok a) : ∃ n, reader n = .ok a := by
  have htaken := taken_takeBody reader r
  rw [h] at htaken
  cases htaken with
  | read _ _ hread => exact ⟨_, hread⟩

theorem exists_of_takeBody_eq_error {reader : Node → Except Fault α} {err : ServiceError}
    (h : takeBody reader r = .error err) : ∃ why, err = .body why := by
  have htaken := taken_takeBody reader r
  rw [h] at htaken
  cases htaken with
  | mediaType => exact ⟨_, rfl⟩
  | tooLarge => exact ⟨_, rfl⟩
  | fault => exact ⟨_, rfl⟩

theorem takeBody_eq_mediaType_iff (reader : Node → Except Fault α) :
    takeBody reader r = .error (.body .mediaType) ↔ ¬ MediaType.AnnouncesJson r.contentType := by
  constructor
  · intro h
    have htaken := taken_takeBody reader r
    rw [h] at htaken
    generalize herr : BodyRejection.mediaType = why at htaken
    cases htaken with
    | mediaType h => exact h
    | tooLarge => cases herr
    | @fault _ _ f => cases f <;> cases herr
  · intro h
    exact if_pos h

theorem takeBody_eq_tooLarge_iff (reader : Node → Except Fault α) :
    takeBody reader r = .error (.body .tooLarge) ↔
      MediaType.AnnouncesJson r.contentType ∧ maxBody < r.body.size := by
  constructor
  · intro h
    have htaken := taken_takeBody reader r
    rw [h] at htaken
    generalize herr : BodyRejection.tooLarge = why at htaken
    cases htaken with
    | mediaType => cases herr
    | tooLarge htype hsize => exact ⟨htype, hsize⟩
    | @fault _ _ f => cases f <;> cases herr
  · rintro ⟨htype, hsize⟩
    exact (if_neg (not_not_intro htype)).trans (if_pos hsize)

theorem takeBody_map (f : α → β) (reader : Node → Except Fault α) (r : Request) :
    takeBody (fun n => f <$> reader n) r = f <$> takeBody reader r := by
  simp only [takeBody]
  split_ifs
  · rfl
  · rcases reader (Document.ofMarks (.decode r.body)).root with e | a <;> rfl
  · rfl

/-! ### What is wrong with a request -/

/-- The first thing that is wrong with a request to an endpoint. -/
inductive Mistake (clock : Clock) (r : Request) (e : Endpoint) : ServiceError → Prop where
  | body {why : BodyRejection} (h : takeBody (reader e) r = .error (.body why)) :
      Mistake clock r e (.body why)
  | order {range : RangeOrder} {spans : List Quantity} {err : OrderError}
      (h : takeBody (reader e) r = .ok (.order range spans))
      (herr : OrderFault range spans clock err) : Mistake clock r e (.ofOrder err)

variable {s : Service} {clock : Clock} {cap : Nat} {e : Endpoint}

namespace Mistake

variable {err err' : ServiceError}

theorem unique (h : Mistake clock r e err) (h' : Mistake clock r e err') : err = err' := by
  cases h with
  | body h =>
      cases h' with
      | body h' => exact Except.error.inj (h.symm.trans h')
      | order h' => cases h.symm.trans h'
  | order h herr =>
      cases h' with
      | body h' => cases h.symm.trans h'
      | order h' herr' =>
          obtain ⟨rfl, rfl⟩ := Content.order.inj (Except.ok.inj (h.symm.trans h'))
          rw [herr.unique herr']

/-- What is wrong is one of three things, each with a code of its own: the body, a text of the
order, or the sequence of its ends. -/
theorem cases_code (h : Mistake clock r e err) :
    (∃ why, takeBody (reader e) r = .error (.body why) ∧ err = .body why) ∨
    (∃ range spans t, takeBody (reader e) r = .ok (.order range spans) ∧
      OrderFault range spans clock (.time t) ∧ err = .order t) ∨
    ∃ range spans a b, takeBody (reader e) r = .ok (.order range spans) ∧
      OrderFault range spans clock (.reversed a b) ∧
      err = .validation "start must not be after end" := by
  cases h with
  | body h => exact .inl ⟨_, h, rfl⟩
  | @order range spans err h herr =>
      cases err with
      | time t => exact .inr (.inl ⟨range, spans, t, h, herr, rfl⟩)
      | reversed a b => exact .inr (.inr ⟨range, spans, a, b, h, herr, rfl⟩)

/-- Only a body that is rejected has a status of its own. -/
theorem status_mem (h : Mistake clock r e err) : err.status ∈ [400, 413, 415, 422] := by
  obtain ⟨why, -, rfl⟩ | ⟨-, -, t, -, -, rfl⟩ | ⟨-, -, -, -, -, -, rfl⟩ := h.cases_code
  · cases why <;> decide
  · exact List.mem_cons_self
  · exact List.mem_cons_self

theorem code_mem (h : Mistake clock r e err) :
    err.code ∈ ["INVALID_JSON", "VALIDATION_ERROR", "INVALID_SPLIT_REQUEST"] := by
  obtain ⟨why, -, rfl⟩ | ⟨-, -, t, -, -, rfl⟩ | ⟨-, -, -, -, -, -, rfl⟩ := h.cases_code
  · exact List.mem_cons_self
  · simp [ServiceError.code]
  · simp [ServiceError.code]

/-- A status that only a rejected body has. -/
theorem exists_status_iff (why : BodyRejection) (hwhy : why.status ≠ 400) :
    (∃ err, Mistake clock r e err ∧ err.status = why.status) ↔
      takeBody (reader e) r = .error (.body why) := by
  constructor
  · rintro ⟨err, h, hstatus⟩
    obtain ⟨why', hbody, rfl⟩ | ⟨-, -, t, -, -, rfl⟩ | ⟨-, -, -, -, -, -, rfl⟩ := h.cases_code
    · rw [← BodyRejection.eq_of_status_eq hstatus, hbody]
    · exact absurd hstatus.symm hwhy
    · exact absurd hstatus.symm hwhy
  · intro h
    exact ⟨_, .body h, rfl⟩

theorem code_of_status_ne (h : Mistake clock r e err) (hstatus : err.status ≠ 400) :
    err.code = "INVALID_JSON" := by
  obtain ⟨why, -, rfl⟩ | ⟨-, -, t, -, -, rfl⟩ | ⟨-, -, -, -, -, -, rfl⟩ := h.cases_code
  · rfl
  · exact absurd rfl hstatus
  · exact absurd rfl hstatus

/-- Rows are taken as they are. -/
theorem code_of_compile (h : Mistake clock r .compile err) : err.code = "INVALID_JSON" := by
  cases h with
  | body => rfl
  | order h =>
      obtain ⟨n, hread⟩ := exists_of_takeBody_eq_ok h
      change Content.rows <$> rowsShape.read n = _ at hread
      rcases hrows : rowsShape.read n with f | rows <;> rw [hrows] at hread <;> cases hread

end Mistake

/-! ### The course of a request -/

/-- How a request to an endpoint may go. -/
inductive Course (cap : Nat) (clock : Clock) (r : Request) (e : Endpoint) :
    Except ServiceError Value → Prop where
  | mistaken {err : ServiceError} (h : Mistake clock r e err) : Course cap clock r e (.error err)
  | settled {v : Value} (h : ∀ err, ¬ Mistake clock r e err) (hv : e.IsResult cap v) :
      Course cap clock r e (.ok v)

/-- The result of a split. -/
theorem isResult_ofChunks (he : e = .split ∨ e = .splitLogs) {split : Except Refusal (List Chunk)}
    (h : ∀ cs, split = .ok cs → cs.length ≤ cap ∧ ∀ c ∈ cs, c.Fits) :
    e.IsResult cap (SplitResult.ofChunks split.toOption).toValue := by
  rcases split with refusal | cs
  · exact .refused he
  · exact .chunks he cs (h cs rfl).1 (h cs rfl).2

/-- The course of an endpoint that takes an order, resolves it and splits what it has resolved. -/
theorem course_of_order {α γ : Type} {readOrder : Node → Except Fault α} {range : α → RangeOrder}
    {spans : α → List Quantity} {resolve : α → Except OrderError γ}
    {chunks : γ → Except Refusal (List Chunk)} (he : e = .split ∨ e = .splitLogs)
    (hreader : reader e = fun n => (fun o => .order (range o) (spans o)) <$> readOrder n)
    (hresolve : ∀ o err, resolve o = .error err ↔ OrderFault (range o) (spans o) clock err)
    (hchunks : ∀ n o q cs, readOrder n = .ok o → resolve o = .ok q → chunks q = .ok cs →
      cs.length ≤ cap ∧ ∀ c ∈ cs, c.Fits) (r : Request) :
    Course cap clock r e (do
      let o ← takeBody readOrder r
      let q ← (resolve o).mapError .ofOrder
      return (SplitResult.ofChunks (chunks q).toOption).toValue) := by
  have hcontent : takeBody (reader e) r =
      (fun o => .order (range o) (spans o)) <$> takeBody readOrder r := by
    rw [hreader]
    exact takeBody_map _ readOrder r
  rcases htake : takeBody readOrder r with err | o <;> rw [htake] at hcontent
  · obtain ⟨why, rfl⟩ := exists_of_takeBody_eq_error htake
    exact .mistaken (.body hcontent)
  · simp only [bind, Except.bind]
    rcases hq : resolve o with err | q
    · exact .mistaken (.order hcontent ((hresolve o err).mp hq))
    · refine .settled (fun err herr => ?_) (isResult_ofChunks he fun cs hcs => ?_)
      · -- a mistake would be a fault of this order, which has been resolved
        cases herr with
        | body h => cases hcontent.symm.trans h
        | order h herr =>
            obtain ⟨rfl, rfl⟩ := Content.order.inj (Except.ok.inj (hcontent.symm.trans h))
            cases hq.symm.trans ((hresolve o _).mpr herr)
      · obtain ⟨n, hread⟩ := exists_of_takeBody_eq_ok htake
        exact hchunks n o q cs hread hq hcs

theorem course_split (s : Service) (clock : Clock) (r : Request) :
    Course s.cap clock r .split (s.split clock r) := by
  refine course_of_order (.inl rfl) rfl (fun _ _ => MetricOrder.resolve_eq_error_iff) ?_ r
  intro n o q cs _ _ hcs
  obtain ⟨-, hle, rfl⟩ := MetricSplit.chunks_eq_ok_iff.mp hcs
  exact ⟨hle, MetricSplit.fits_of_chunks hcs⟩

theorem course_splitLogs (s : Service) (hstart : Millis.Fits clock.atStart)
    (hstop : Millis.Fits clock.atStop) (r : Request) :
    Course s.cap clock r .splitLogs (s.splitLogs clock r) := by
  refine course_of_order (.inr rfl) rfl (fun _ _ => LogOrder.resolve_eq_error_iff) ?_ r
  intro n o q cs hread hq hcs
  -- contiguous chunks are in range because the range is, whose ends were read from the body
  obtain ⟨hfrom, hto⟩ := LogOrder.fits_of_resolve (LogOrder.fits_of_read hread) hstart hstop hq
  obtain ⟨-, hle, rfl⟩ := (LogSplit.chunks_eq_ok_iff hfrom hto).mp hcs
  exact ⟨hle, LogSplit.fits_of_chunks hfrom hto hcs⟩

theorem course_compile (cap : Nat) (clock : Clock) (r : Request) :
    Course cap clock r .compile (compile r) := by
  have hcontent : takeBody (reader .compile) r = _ := takeBody_map _ rowsShape.read r
  rw [compile]
  rcases htake : takeBody rowsShape.read r with err | rows <;> rw [htake] at hcontent
  · obtain ⟨why, rfl⟩ := exists_of_takeBody_eq_error htake
    exact .mistaken (.body hcontent)
  · refine .settled (fun err herr => ?_) (.query _)
    cases herr with
    | body h => cases hcontent.symm.trans h
    | order h => cases hcontent.symm.trans h

theorem exists_course (s : Service) {x : Circumstances} (r : Request) (he : "POST" ∈ e.methods)
    (hstart : Millis.Fits x.clock.atStart) (hstop : Millis.Fits x.clock.atStop) :
    ∃ result, (∀ explain, s.serve x r e explain = conclude x.bits result (explain r)) ∧
      Course s.cap x.clock r e result := by
  cases e with
  | split => exact ⟨_, fun _ => rfl, course_split s x.clock r⟩
  | splitLogs => exact ⟨_, fun _ => rfl, course_splitLogs s hstart hstop r⟩
  | compile => exact ⟨_, fun _ => rfl, course_compile s.cap x.clock r⟩
  | health => exact absurd he (by decide)
  | live => exact absurd he (by decide)

/-! ### Envelopes -/

namespace Course

variable {result : Except ServiceError Value} {bits : Nat} {detail code message : String}

theorem fails_conclude {err : ServiceError} (h : err.status ∈ [400, 413, 415, 422]) (bits : Nat)
    (detail : String) :
    (conclude bits (.error err) detail).Fails err.code (err.message detail) := by
  refine ⟨h, String.ofList (Uuid.version4 bits), ?_, rfl⟩
  rw [String.toList_ofList]
  exact Uuid.isVersion4_version4 bits

/-- **A post fails exactly with what is wrong with it.** -/
theorem fails_iff (h : Course cap clock r e result) :
    (conclude bits result detail).Fails code message ↔
      ∃ err, Mistake clock r e err ∧ code = err.code ∧ message = err.message detail := by
  cases h with
  | @mistaken err h =>
      constructor
      · rintro ⟨-, id, -, hbody⟩
        have hmembers := Value.object.inj (Option.some.inj hbody)
        simp only [List.cons.injEq, Prod.mk.injEq, Value.object.injEq, Value.string.injEq]
          at hmembers
        exact ⟨err, h, hmembers.1.2.1.2.symm, hmembers.1.2.2.1.2.symm⟩
      · rintro ⟨err', h', rfl, rfl⟩
        obtain rfl := h.unique h'
        exact fails_conclude h.status_mem bits detail
  | settled h hv =>
      constructor
      · rintro ⟨hstatus, -⟩
        simp [conclude] at hstatus
      · rintro ⟨err, herr, -⟩
        exact absurd herr (h err)

theorem status_eq_iff (h : Course cap clock r e result) {n : Nat} (hn : n ≠ 200) :
    (conclude bits result detail).status = n ↔ ∃ err, Mistake clock r e err ∧ err.status = n := by
  cases h with
  | @mistaken err h =>
      constructor
      · rintro rfl
        exact ⟨err, h, rfl⟩
      · rintro ⟨err', h', rfl⟩
        rw [h.unique h']
        rfl
  | settled h hv =>
      constructor
      · rintro rfl
        exact absurd rfl hn
      · rintro ⟨err, herr, -⟩
        exact absurd herr (h err)

/-- Every answer has a body that can be read. -/
theorem ofText?_render (h : Course cap clock r e result) (hcap : cap < UInt64.size) (bits : Nat)
    (detail : String) :
    ∃ v, (conclude bits result detail).body = some v ∧ Value.ofText? v.render = some v := by
  cases h with
  | mistaken h =>
      refine ⟨_, rfl, Value.IsText.ofText? (Value.isText_render rfl) ?_⟩
      exact show 2 ≤ 127 by decide
  | settled h hv =>
      exact ⟨_, rfl, Value.IsText.ofText? (Value.isText_render (hv.isPlain hcap)) hv.depth_le⟩

end Course

/-! ### Answers -/

/-- How a post to an endpoint is answered: with a result or an envelope, whose code is the one of
the first thing that is wrong with the request. The reader of JSON has the `detail` to say about its
body. -/
structure Settled (cap : Nat) (clock : Clock) (r : Request) (e : Endpoint) (detail : String)
    (o : Response) : Prop where
  shape : o.Succeeds cap e ∨
    ∃ code ∈ ["INVALID_JSON", "VALIDATION_ERROR", "INVALID_SPLIT_REQUEST"],
      ∃ message, o.Fails code message
  /-- The body is there, and its text is read as what it was written of. -/
  json : ∃ v, o.body = some v ∧ Value.ofText? v.render = some v
  rejected : ∀ message, o.Fails "INVALID_JSON" message ↔ ∃ why,
    takeBody (reader e) r = .error (.body why) ∧
    message = "Invalid JSON body: " ++ why.message detail
  reversed : ∀ message, o.Fails "VALIDATION_ERROR" message ↔ ∃ range spans a b,
    takeBody (reader e) r = .ok (.order range spans) ∧
    range.start.instant clock.atStart = .ok a ∧ range.stop.instant clock.atStop = .ok b ∧ b < a ∧
    message = "Validation error: start must not be after end"
  unreadable : ∀ message, o.Fails "INVALID_SPLIT_REQUEST" message ↔ ∃ range spans err,
    takeBody (reader e) r = .ok (.order range spans) ∧ OrderFault range spans clock (.time err) ∧
    message = "Invalid split request: " ++ err.message
  status : ∀ why, takeBody (reader e) r = .error (.body why) → o.status = why.status
  mediaType : o.status = 415 ↔ ¬ MediaType.AnnouncesJson r.contentType
  tooLarge : o.status = 413 ↔ MediaType.AnnouncesJson r.contentType ∧ maxBody < r.body.size
  /-- Other statuses than the usual one come from rejected bodies alone. -/
  otherStatus : o.status ∈ [413, 415, 422] → ∃ message, o.Fails "INVALID_JSON" message
  compile : e = .compile → ∀ code message, o.Fails code message → code = "INVALID_JSON"

theorem Course.settled_conclude {result : Except ServiceError Value}
    (h : Course cap clock r e result) (hcap : cap < UInt64.size) (bits : Nat) (detail : String) :
    Settled cap clock r e detail (conclude bits result detail) where
  shape := by
    cases h with
    | mistaken h => exact .inr ⟨_, h.code_mem, _, fails_conclude h.status_mem bits detail⟩
    | settled _ hv => exact .inl ⟨rfl, _, rfl, hv⟩
  json := h.ofText?_render hcap bits detail
  rejected message := by
    rw [h.fails_iff]
    constructor
    · rintro ⟨err, herr, hcode, rfl⟩
      obtain ⟨why, hbody, rfl⟩ | ⟨-, -, t, -, -, rfl⟩ | ⟨-, -, -, -, -, -, rfl⟩ := herr.cases_code
      · exact ⟨why, hbody, rfl⟩
      · simp [ServiceError.code] at hcode
      · simp [ServiceError.code] at hcode
    · rintro ⟨why, hbody, rfl⟩
      exact ⟨_, .body hbody, rfl, rfl⟩
  reversed message := by
    rw [h.fails_iff]
    constructor
    · rintro ⟨err, herr, hcode, rfl⟩
      obtain ⟨why, -, rfl⟩ | ⟨-, -, t, -, -, rfl⟩ | ⟨range, spans, a, b, hbody, hfault, rfl⟩ :=
        herr.cases_code
      · simp [ServiceError.code] at hcode
      · simp [ServiceError.code] at hcode
      · obtain ⟨ha, hb, hlt⟩ :=
          RangeOrder.fault_reversed_iff.mp (orderFault_reversed_iff.mp hfault)
        exact ⟨range, spans, a, b, hbody, ha, hb, hlt, rfl⟩
    · rintro ⟨range, spans, a, b, hbody, ha, hb, hlt, rfl⟩
      exact ⟨_, .order hbody (.range (.reversed ha hb hlt)), rfl, rfl⟩
  unreadable message := by
    rw [h.fails_iff]
    constructor
    · rintro ⟨err, herr, hcode, rfl⟩
      obtain ⟨why, -, rfl⟩ | ⟨range, spans, t, hbody, hfault, rfl⟩ | ⟨-, -, -, -, -, -, rfl⟩ :=
        herr.cases_code
      · simp [ServiceError.code] at hcode
      · exact ⟨range, spans, t, hbody, hfault, rfl⟩
      · simp [ServiceError.code] at hcode
    · rintro ⟨range, spans, t, hbody, hfault, rfl⟩
      exact ⟨_, .order hbody hfault, rfl, rfl⟩
  status why hbody := by
    have hwhy : why.status ≠ 200 := by
      cases why <;> decide
    exact (h.status_eq_iff hwhy).mpr ⟨_, .body hbody, rfl⟩
  mediaType := by
    rw [h.status_eq_iff (by decide), ← takeBody_eq_mediaType_iff (reader e)]
    exact Mistake.exists_status_iff .mediaType (by decide)
  tooLarge := by
    rw [h.status_eq_iff (by decide), ← takeBody_eq_tooLarge_iff (reader e)]
    exact Mistake.exists_status_iff .tooLarge (by decide)
  otherStatus hstatus := by
    obtain ⟨hok, hbad⟩ : (conclude bits result detail).status ≠ 200 ∧
        (conclude bits result detail).status ≠ 400 := by
      constructor <;> rintro heq <;> simp [heq] at hstatus
    obtain ⟨err, herr, heq⟩ := (h.status_eq_iff hok).mp rfl
    have hcode := herr.code_of_status_ne (heq ▸ hbad)
    exact ⟨err.message detail, h.fails_iff.mpr ⟨err, herr, hcode.symm, rfl⟩⟩
  compile := by
    rintro rfl code message hfails
    obtain ⟨err, herr, rfl, -⟩ := h.fails_iff.mp hfails
    exact herr.code_of_compile

/-! ### The service -/

/-- **Every post is answered with a result or with an envelope that tells what is wrong first**, for
every content type or none and all bytes of the body, and whatever the reader of JSON has to say
about a body. The cap and the clock are any numbers of 64 bits. -/
theorem respond_settled (s : Service) (x : Circumstances) (r : Request)
    (explain : Request → String) (hmethod : r.method = "POST")
    (htarget : Endpoint.ofTarget? r.target = some e) (he : "POST" ∈ e.methods)
    (hcap : s.cap < UInt64.size) (hstart : Millis.Fits x.clock.atStart)
    (hstop : Millis.Fits x.clock.atStop) :
    Settled s.cap x.clock r e (explain r) (s.respond x r explain) := by
  obtain ⟨result, hresult, hcourse⟩ := exists_course s r he hstart hstop
  rw [respond_eq_serve hmethod htarget he, hresult]
  exact hcourse.settled_conclude hcap x.bits (explain r)

/-- The range is reversed and the span cannot be read either; the range is looked at first. -/
theorem respond_settled_reversed :
    let r : Request := ⟨"POST", "http://h/api/v1/split/logs?q", some "application/json",
      "[5,\"now\",\"\"]".toUTF8⟩
    let explain : Request → String := fun _ => ": expected value at line 1 column 1"
    let o := Service.respond ⟨0⟩ ⟨⟨9, 4⟩, 0, 0⟩ r explain
    Settled 0 ⟨9, 4⟩ r .splitLogs (explain r) o ∧
      o.Fails "VALIDATION_ERROR" "Validation error: start must not be after end" := by
  intro r explain o
  have h := respond_settled ⟨0⟩ ⟨⟨9, 4⟩, 0, 0⟩ r explain rfl
    (by decide +kernel : Endpoint.ofTarget? r.target = some .splitLogs) (by decide) (by decide)
    (by decide) (by decide)
  have hbody : takeBody (reader .splitLogs) r =
      .ok (.order ⟨.millis 5, .text "now"⟩ [.text ""]) := by
    decide +kernel
  have hnow : (Quantity.text "now").instant 4 = .ok 4 := by decide +kernel
  exact ⟨h, (h.reversed _).mpr ⟨_, _, 5, 4, hbody, rfl, hnow, by decide, rfl⟩⟩

end Service

end QueryPrep
