import Mathlib.Logic.Relation
import QueryPrep.Proofs.Http.Answer
import QueryPrep.Proofs.Json.Located
import QueryPrep.Proofs.Split.Quantity
import QueryPrep.Proofs.Text.Marks

/-!
# Milliseconds in quotes

Any integer that a body has for a field of an order may be put into quotes (`Quotes`,
`IsOrderShape.exists_quotes`), in as many fields as one likes and in any order of doing so. What is
then read is another order, but it is resolved alike under every clock
(`IsOrderShape.exists_of_quotes`), so the answer is the same.

Main result: quoting changes no answer, and of all values that a field may be given, the integers of
64 bits and the texts are taken, and the others are refused as values of a wrong type
(`Service.respond_quoted`).
-/

namespace QueryPrep

open QueryPrep.Json
open Text (Marks)

/-- An integer that a text has for a field is put into quotes. The number of a span must not be
negative for that. -/
inductive Quotes (fields : List (RecordField OrderDraft)) : Marks → Marks → Prop where
  | intro {i : Nat} {f : RecordField OrderDraft} {front behind : Marks} {n : Int}
      {cs ds : List Char} (hf : fields[i]? = some f)
      (hgap : Document.HasGap f.name i front behind) (hfits : Millis.Fits n)
      (hspan : f.name ≠ "start" → f.name ≠ "end" → 0 ≤ n) (hliteral : Numeral.IsLiteral n cs)
      (hquoted : (Value.string (Decimal.render n)).IsText ds) :
      Quotes fields (front ++ cs.map some ++ behind) (front ++ ds.map some ++ behind)

namespace IsOrderShape

open OrderDraft Quantity

variable {α γ : Type} {shape : Shape OrderDraft α} {resolve : α → Clock → Except OrderError γ}
  {f : RecordField OrderDraft} {i : Nat} {s s' front behind : Marks} {cs ds : List Char} {a : α}
  {v w : Value} {put : Node → Node} {n : Int}

/-- An integer that is given for a field is one of 64 bits. -/
theorem fits_of_read (h : IsOrderShape shape resolve) (hf : shape.fields[i]? = some f)
    (hput : Node.Gap f.name i put) (hint : Document.Holds put s (.int n))
    (hread : shape.read (Document.ofMarks s).root = .ok a) : Millis.Fits n := by
  obtain ⟨m, hm, hroot⟩ := hint
  rw [hroot] at hread
  by_contra hfits
  have hnode : Quantity.ofNode m = .error .mismatch := by
    rw [ofNode_of_meaning? hm (Nat.zero_le _), Value.int, ofValue?, if_neg hfits]
    rfl
  rw [h.read_eq_mismatch hf hput hread hnode] at hread
  cases hread

/-- **Every integer that is given for a field may be put into quotes**, where it is a text. -/
theorem exists_quotes (h : IsOrderShape shape resolve) (hf : shape.fields[i]? = some f)
    (hput : Node.Gap f.name i put) (hint : Document.Holds put s (.int n))
    (hspan : f.name ≠ "start" → f.name ≠ "end" → 0 ≤ n)
    (hread : shape.read (Document.ofMarks s).root = .ok a) :
    ∃ s', Quotes shape.fields s s' ∧ Document.Holds put s' (.string (Decimal.render n)) := by
  obtain ⟨front, cs, behind, rfl, hliteral, hgap, hfill⟩ :=
    Document.exists_hasGap hput hint (Shape.isComplete_of_read hread)
  have hquoted : (Value.string (Decimal.render n)).IsText _ := Value.isText_render rfl
  exact ⟨_, .intro hf hgap (h.fits_of_read hf hput hint hread) hspan hliteral hquoted,
    hfill _ _ hquoted⟩

/-- **An order with a number in quotes is resolved as without them.** -/
theorem exists_of_quotes (h : IsOrderShape shape resolve) (hquotes : Quotes shape.fields s s')
    (hread : shape.read (Document.ofMarks s).root = .ok a) :
    ∃ a', shape.read (Document.ofMarks s').root = .ok a' ∧
      ∀ clock, resolve a' clock = resolve a clock := by
  obtain @⟨i, f, front, behind, n, cs, ds, hf, hgap, hfits, hspan, hliteral, hquoted⟩ := hquotes
  -- both texts are one document with a gap, which holds the number or its numeral as a string
  obtain ⟨put, hput, hfill⟩ := hgap.exists_gap
  have htext : (Value.int n).IsText cs := by
    rw [Numeral.isLiteral_iff.mp hliteral]
    exact Value.isText_int (Chunk.isPlain_int hfits)
  obtain ⟨m, hm, hroot⟩ := hfill _ _ htext
  obtain ⟨m', hm', hroot'⟩ := hfill _ _ hquoted
  have hnumber : Quantity.ofNode m = .ok (.millis n) := by
    rw [ofNode_of_meaning? hm (Nat.zero_le _), Value.int, ofValue?, if_pos hfits]
    rfl
  have hstring : Quantity.ofNode m' = .ok (.text (Decimal.render n)) :=
    ofNode_of_meaning? hm' (Nat.zero_le _)
  have hrel : ∀ p, Quantity.ofNode m = .ok p →
      fieldRel SameInstant SameSpan f p (.text (Decimal.render n)) := by
    intro p hp
    obtain rfl := Except.ok.inj (hnumber.symm.trans hp)
    unfold fieldRel
    split_ifs with hname
    · exact sameInstant_render hfits
    · obtain ⟨hstart, hstop⟩ := not_or.mp hname
      exact sameSpan_render hfits (hspan hstart hstop)
  rw [hroot] at hread
  rw [hroot']
  obtain ⟨a', hread', hresolve⟩ :=
    h.exists_of_refill hf hput hread sameInstant_refl sameSpan_refl hstring hrel
  exact ⟨a', hread', hresolve (fun _ _ => id) fun _ _ => id⟩

theorem exists_of_reflTransGen (h : IsOrderShape shape resolve)
    (hquotes : Relation.ReflTransGen (Quotes shape.fields) s s')
    (hread : shape.read (Document.ofMarks s).root = .ok a) :
    ∃ a', shape.read (Document.ofMarks s').root = .ok a' ∧
      ∀ clock, resolve a' clock = resolve a clock := by
  induction hquotes with
  | refl => exact ⟨a, hread, fun _ => rfl⟩
  | tail _ hquote ih =>
      obtain ⟨a', hread', hresolve⟩ := ih
      obtain ⟨a'', hread'', hresolve'⟩ := h.exists_of_quotes hquote hread'
      exact ⟨a'', hread'', fun clock => (hresolve' clock).trans (hresolve clock)⟩

/-- **A field takes quantities and refuses everything else.** -/
theorem read_gap (h : IsOrderShape shape resolve) (hf : shape.fields[i]? = some f)
    (hgap : Document.HasGap f.name i front behind) (hv : v.IsText cs)
    (hdepth : v.depth ≤ Node.maxLevels - 1) (hw : w.IsText ds)
    (hread : shape.read (Document.ofMarks (front ++ ds.map some ++ behind)).root = .ok a) :
    (IsGivenBy v →
      ∃ a', shape.read (Document.ofMarks (front ++ cs.map some ++ behind)).root = .ok a') ∧
    (¬ IsGivenBy v →
      shape.read (Document.ofMarks (front ++ cs.map some ++ behind)).root = .error .mismatch) := by
  obtain ⟨put, hput, hfill⟩ := hgap.exists_gap
  obtain ⟨m, hm, hroot⟩ := hfill v cs hv
  obtain ⟨n, -, hother⟩ := hfill w ds hw
  have hnode := ofNode_of_meaning? hm hdepth
  rw [hother] at hread
  rw [hroot]
  constructor
  · intro hquantity
    obtain ⟨q, hq⟩ := Option.ne_none_iff_exists'.mp fun hnone =>
      ofValue?_eq_none_iff.mp hnone hquantity
    rw [hq] at hnode
    obtain ⟨a', hread', -⟩ := h.exists_of_refill hf hput hread (I := fun _ _ => True)
      (S := fun _ _ => True) (fun _ => trivial) (fun _ => trivial) hnode
      (fun _ _ => by unfold fieldRel; split_ifs <;> trivial)
    exact ⟨a', hread'⟩
  · intro hquantity
    rw [ofValue?_eq_none_iff.mpr hquantity] at hnode
    exact h.read_eq_mismatch hf hput hread hnode

end IsOrderShape

/-! ### Answers -/

/-- The fields of the orders that an endpoint takes. -/
def Endpoint.orderFields : Endpoint → List (RecordField OrderDraft)
  | split => MetricOrder.shape.fields
  | splitLogs => LogOrder.shape.fields
  | _ => []

namespace Service

variable {α γ : Type} {reader : Node → Except Fault α} {s : Service} {x : Circumstances}
  {r : Request} {e : Endpoint} {body : ByteArray} {a : α} {f : Fault} {bits : Nat}

theorem announced_of_takeBody (h : takeBody reader r = .ok a) :
    MediaType.AnnouncesJson r.contentType ∧ r.body.size ≤ maxBody := by
  have htaken := taken_takeBody reader r
  rw [h] at htaken
  cases htaken with
  | read htype hsize _ => exact ⟨htype, hsize⟩

/-- The answer of an endpoint that takes orders of some kind, resolves and splits them. -/
def answerOrder (shape : Shape OrderDraft α) (resolve : α → Clock → Except OrderError γ)
    (chunks : γ → Except Refusal (List Chunk)) (clock : Clock) (r : Request) :
    Except ServiceError Value := do
  let order ← takeBody shape.read r
  let q ← (resolve order clock).mapError .ofOrder
  return (SplitResult.ofChunks (chunks q).toOption).toValue

/-- How the endpoints that take orders do it. -/
theorem exists_orderShape (he : e = .split ∨ e = .splitLogs) (s : Service) :
    ∃ (α γ : Type) (shape : Shape OrderDraft α) (resolve : α → Clock → Except OrderError γ)
      (chunks : γ → Except Refusal (List Chunk)) (content : α → Content),
      IsOrderShape shape resolve ∧ shape.fields = e.orderFields ∧
      Service.reader e = (fun n => content <$> shape.read n) ∧
      ∀ x r explain, s.serve x r e explain =
        conclude x.bits (answerOrder shape resolve chunks x.clock r) (explain r) := by
  rcases he with rfl | rfl
  · exact ⟨_, _, MetricOrder.shape, MetricOrder.resolve, (·.chunks s.cap), _,
      MetricOrder.isOrderShape, rfl, rfl, fun _ _ _ => rfl⟩
  · exact ⟨_, _, LogOrder.shape, LogOrder.resolve, (·.chunks s.cap), _,
      LogOrder.isOrderShape, rfl, rfl, fun _ _ _ => rfl⟩

section

variable {shape : Shape OrderDraft α} {resolve : α → Clock → Except OrderError γ}
  {f : RecordField OrderDraft} {put : Node → Node} {i : Nat} {n : Int} {front behind : Marks}
  {cs ds : List Char} {v w : Value}

/-- Quoting changes no answer of an endpoint that takes orders. -/
theorem answerOrder_quoted (h : IsOrderShape shape resolve)
    (chunks : γ → Except Refusal (List Chunk)) (clock : Clock)
    (htake : takeBody shape.read r = .ok a)
    (hquotes : Relation.ReflTransGen (Quotes shape.fields) (.decode r.body) (.decode body))
    (hsize : body.size ≤ maxBody) :
    answerOrder shape resolve chunks clock { r with body } =
      answerOrder shape resolve chunks clock r := by
  obtain ⟨htype, hfits⟩ := announced_of_takeBody htake
  have hread := htake
  rw [takeBody_of_announced shape.read htype hfits, mapError_eq_ok_iff] at hread
  obtain ⟨a', hread', hresolve⟩ := h.exists_of_reflTransGen hquotes hread
  have htake' : takeBody shape.read { r with body } = .ok a' := by
    have htype' : MediaType.AnnouncesJson { r with body }.contentType := htype
    rw [takeBody_of_announced shape.read htype' hsize, mapError_eq_ok_iff]
    exact hread'
  rw [answerOrder, answerOrder, htake, htake']
  change (resolve a' clock).mapError _ >>= _ = (resolve a clock).mapError _ >>= _
  rw [hresolve]

/-- What is said about rejected bodies does not count once the body is taken. -/
theorem conclude_answerOrder_of_taken (resolve : α → Clock → Except OrderError γ)
    (chunks : γ → Except Refusal (List Chunk)) (clock : Clock)
    (htake : takeBody shape.read r = .ok a) (detail detail' : String) :
    conclude bits (answerOrder shape resolve chunks clock r) detail =
      conclude bits (answerOrder shape resolve chunks clock r) detail' := by
  rw [answerOrder, htake]
  change conclude bits ((resolve a clock).mapError _ >>= _) _ =
    conclude bits ((resolve a clock).mapError _ >>= _) _
  rcases resolve a clock with (err | ⟨start, stop⟩) | q <;> rfl

/-- Every integer that a body has for a field may be put into quotes. -/
theorem exists_body_quoted (h : IsOrderShape shape resolve)
    (htake : takeBody shape.read r = .ok a) (hf : shape.fields[i]? = some f)
    (hput : Node.Gap f.name i put) (hint : Document.Holds put (.decode r.body) (.int n))
    (hspan : f.name ≠ "start" → f.name ≠ "end" → 0 ≤ n) :
    ∃ body, Quotes shape.fields (.decode r.body) (.decode body) ∧
      Document.Holds put (.decode body) (.string (Decimal.render n)) := by
  obtain ⟨htype, hfits⟩ := announced_of_takeBody htake
  rw [takeBody_of_announced shape.read htype hfits, mapError_eq_ok_iff] at htake
  obtain ⟨s', hquotes, hstring⟩ := h.exists_quotes hf hput hint hspan htake
  obtain ⟨body, rfl⟩ := Marks.exists_decode_eq s'
  exact ⟨body, hquotes, hstring⟩

/-- A body is taken exactly with a quantity in the gap. -/
theorem takeBody_gap (h : IsOrderShape shape resolve) (hf : shape.fields[i]? = some f)
    (hgap : Document.HasGap f.name i front behind) (hv : v.IsText cs)
    (hdepth : v.depth ≤ Node.maxLevels - 1)
    (hbody : Marks.decode r.body = front ++ cs.map some ++ behind)
    (htype : MediaType.AnnouncesJson r.contentType) (hsize : r.body.size ≤ maxBody)
    (hw : w.IsText ds)
    (hread : shape.read (Document.ofMarks (front ++ ds.map some ++ behind)).root = .ok a) :
    (Quantity.IsGivenBy v → ∃ a', takeBody shape.read r = .ok a') ∧
      (¬ Quantity.IsGivenBy v → takeBody shape.read r = .error (.body .mismatch)) := by
  obtain ⟨htaken, hrefused⟩ := h.read_gap hf hgap hv hdepth hw hread
  rw [takeBody_of_announced shape.read htype hsize, hbody]
  refine ⟨fun hgiven => ?_, fun hgiven => by rw [hrefused hgiven]; rfl⟩
  obtain ⟨a', ha'⟩ := htaken hgiven
  exact ⟨a', by rw [ha']; rfl⟩

end

/-- **Milliseconds may be given as a number or as a text.** Putting integers of fields into quotes
changes nothing about the answer, as long as the body does not become too large, and every integer
of a field can be put into quotes, but for negative ones of a span. A field of an order that would
be read otherwise takes texts and integers of 64 bits, and any other value there is of a wrong
type, whatever the reader of JSON has to say about that. -/
theorem respond_quoted (he : e = .split ∨ e = .splitLogs) (s : Service) (x : Circumstances)
    (explain : Request → String) (hmethod : r.method = "POST")
    (htarget : Endpoint.ofTarget? r.target = some e) :
    (∀ content body, takeBody (Service.reader e) r = .ok content →
      Relation.ReflTransGen (Quotes e.orderFields) (.decode r.body) (.decode body) →
      body.size ≤ maxBody → s.respond x { r with body } explain = s.respond x r explain) ∧
    (∀ (i : Nat) (f : RecordField OrderDraft) (put : Node → Node) (n : Int) (content : Content),
      takeBody (Service.reader e) r = .ok content → e.orderFields[i]? = some f →
      Node.Gap f.name i put → Document.Holds put (.decode r.body) (.int n) →
      (f.name ≠ "start" → f.name ≠ "end" → 0 ≤ n) →
        ∃ body, Quotes e.orderFields (.decode r.body) (.decode body) ∧
          Document.Holds put (.decode body) (.string (Decimal.render n))) ∧
    ∀ (i : Nat) (f : RecordField OrderDraft) (front behind : Marks) (v w : Value)
        (cs ds : List Char) (content : Content), e.orderFields[i]? = some f →
      Document.HasGap f.name i front behind → v.IsText cs → v.depth ≤ Node.maxLevels - 1 →
      Marks.decode r.body = front ++ cs.map some ++ behind →
      MediaType.AnnouncesJson r.contentType → r.body.size ≤ maxBody → w.IsText ds →
      Service.reader e (Document.ofMarks (front ++ ds.map some ++ behind)).root = .ok content →
        ((∃ content, takeBody (Service.reader e) r = .ok content) ↔ Quantity.IsGivenBy v) ∧
        (¬ Quantity.IsGivenBy v → (s.respond x r explain).status = 422 ∧
          (s.respond x r explain).Fails "INVALID_JSON"
            ("Invalid JSON body: Failed to deserialize the JSON body into the target type" ++
              explain r)) := by
  have hpost : "POST" ∈ e.methods := by
    rcases he with rfl | rfl <;> exact List.mem_cons_self
  obtain ⟨α, γ, shape, resolve, chunks, content, hshape, hfields, hreader, hserve⟩ :=
    exists_orderShape he s
  have hrespond : ∀ body, s.respond x { r with body } explain =
      conclude x.bits (answerOrder shape resolve chunks x.clock { r with body })
        (explain { r with body }) := fun body => by
    rw [respond_eq_serve (r := { r with body }) hmethod htarget hpost, hserve]
  rw [← hfields, hreader]
  refine ⟨?_, ?_, ?_⟩
  · intro _ body hread hquotes hsize
    rw [takeBody_map] at hread
    obtain ⟨a, ha, -⟩ := map_eq_ok_iff.mp hread
    rw [hrespond, hrespond r.body, answerOrder_quoted hshape chunks x.clock ha hquotes hsize]
    exact conclude_answerOrder_of_taken resolve chunks x.clock ha _ _
  · intro i f put n _ htake hf hput hint hspan
    rw [takeBody_map] at htake
    obtain ⟨a, ha, -⟩ := map_eq_ok_iff.mp htake
    exact exists_body_quoted hshape ha hf hput hint hspan
  · intro i f front behind v w cs ds _ hf hgap hv hdepth hbody htype hsize hw hread
    obtain ⟨a, ha, -⟩ := map_eq_ok_iff.mp hread
    obtain ⟨htaken, hrefused⟩ := takeBody_gap hshape hf hgap hv hdepth hbody htype hsize hw ha
    rw [takeBody_map]
    refine ⟨⟨?_, fun hgiven => ?_⟩, fun hgiven => ?_⟩
    · rintro ⟨_, hcontent⟩
      by_contra hgiven
      rw [hrefused hgiven] at hcontent
      cases hcontent
    · obtain ⟨a', ha'⟩ := htaken hgiven
      exact ⟨content a', by rw [ha']; rfl⟩
    · have hanswer : answerOrder shape resolve chunks x.clock r = .error (.body .mismatch) := by
        rw [answerOrder, hrefused hgiven]
        rfl
      have hfails := @Course.fails_conclude (.body .mismatch) (by decide) x.bits (explain r)
      rw [hrespond r.body, hanswer]
      exact ⟨rfl, hfails⟩

/-- The least start there is, in quotes or not, behind a member that is skipped though it is no
number; and no start is null. -/
theorem respond_quoted_least :
    let post (start : String) : Request := ⟨"POST", "/api/v1/split", some "application/json",
      ("\x7b\"n\":1e999,\"start\":" ++ start ++
        ",\"end\":5,\"step\":1,\"max_chunk\":9\x7d").toUTF8⟩
    let explain : Request → String := fun _ =>
      ": data did not match any variant of untagged enum MillisOrText"
    let o (r : Request) := Service.respond ⟨7⟩ ⟨⟨0, 0⟩, 0, 0⟩ r explain
    (∃ content, takeBody (Service.reader .split) (post "-9223372036854775808") = .ok content) ∧
      o (post "\"-9223372036854775808\"") = o (post "-9223372036854775808") ∧
      (o (post "null")).status = 422 := by
  intro post explain o
  let front := Marks.ofString "\x7b\"n\":1e999,\"start\":"
  let behind := Marks.ofString ",\"end\":5,\"step\":1,\"max_chunk\":9\x7d"
  have hdecode : ∀ start, Marks.decode (post start).body =
      front ++ start.toList.map some ++ behind := fun start => by
    rw [Marks.decode_toUTF8, Marks.ofString, String.toList_append, String.toList_append,
      List.map_append, List.map_append]
    rfl
  have hgap : Document.HasGap "start" 0 front behind := by
    let x : Node.Context := ⟨[.object
      [(some "n", .number ⟨false, ['1'], none, some (false, ['9', '9', '9'])⟩)] (some "start")],
      .value false⟩
    have hlex : Token.lex front = [.openObject, .string (some "n"), .colon,
        .number ⟨false, ['1'], none, some (false, ['9', '9', '9'])⟩, .comma,
        .string (some "start"), .colon] := by decide +kernel
    have hfollow : Node.follow ⟨[], .value false⟩ (Token.lex front) = some x := by
      rw [hlex]
      rfl
    refine ⟨⟨x, hfollow, .member _⟩, fun m hm => ?_⟩
    obtain rfl := Option.some.inj hm
    rfl
  have hnumber : (Value.int (-9223372036854775808)).IsText "-9223372036854775808".toList :=
    Value.isText_int rfl
  have hstring : (Value.string (Decimal.render (-9223372036854775808))).IsText
      "\"-9223372036854775808\"".toList := by
    have hrender : (Value.string (Decimal.render (-9223372036854775808))).render =
        "\"-9223372036854775808\"" := by decide +kernel
    exact hrender ▸ Value.isText_render rfl
  have hread : takeBody (Service.reader .split) (post "-9223372036854775808") =
      .ok (.order ⟨.millis (-9223372036854775808), .millis 5⟩ [.millis 1, .millis 9]) := by
    decide +kernel
  have hquoted : Quotes MetricOrder.shape.fields (.decode (post "-9223372036854775808").body)
      (.decode (post "\"-9223372036854775808\"").body) := by
    rw [hdecode, hdecode]
    exact @Quotes.intro _ 0 OrderDraft.startField front behind _ _ _ rfl hgap (by decide)
      (fun h => absurd rfl h) (Numeral.isLiteral_iff.mpr rfl) hstring
  refine ⟨⟨_, hread⟩, ?_, ?_⟩
  · have hsame := (respond_quoted (r := post "-9223372036854775808") (.inl rfl) ⟨7⟩
      ⟨⟨0, 0⟩, 0, 0⟩ explain rfl (by decide +kernel)).1
    exact hsame _ _ hread (.single hquoted) (by decide +kernel)
  · have hgiven := (respond_quoted (r := post "null") (.inl rfl) ⟨7⟩ ⟨⟨0, 0⟩, 0, 0⟩ explain rfl
      (by decide +kernel)).2.2
    have hnull : Value.null.IsText "null".toList := ⟨.null, rfl, Token.IsTokenText.null.isText⟩
    have hother : Service.reader .split (Document.ofMarks
        (front ++ "-9223372036854775808".toList.map some ++ behind)).root =
        .ok (.order ⟨.millis (-9223372036854775808), .millis 5⟩ [.millis 1, .millis 9]) := by
      decide +kernel
    exact ((hgiven 0 OrderDraft.startField front behind .null _ _ _ _ rfl hgap hnull (by decide)
      (hdecode "null") (by decide) (by decide +kernel) hnumber hother).2
      (by simp [Quantity.IsGivenBy, Value.int])).1

end Service

end QueryPrep
