import QueryPrep.Http.Service
import QueryPrep.Proofs.Json.Tree
import QueryPrep.Proofs.Text.Marks

/-!
# Posts

A post to an endpoint with a JSON text as its body is answered by this endpoint (`respond_post`),
and its body is read as the value that the text stands for, in whatever way it is written
(`takeBody_post`).
-/

namespace QueryPrep

open QueryPrep.Json

/-- The request posts a text to a path: the text is announced as JSON and is not too large. -/
structure Request.Posts (r : Request) (path text : String) : Prop where
  method : r.method = "POST"
  target : r.target = path
  contentType : MediaType.AnnouncesJson r.contentType
  body : r.body = text.toUTF8
  size : text.utf8ByteSize ≤ Service.maxBody

theorem Endpoint.ofTarget?_path (e : Endpoint) : ofTarget? e.path = some e := by
  cases e <;> decide +kernel

namespace Service

variable {s : Service} {x : Circumstances} {r : Request} {explain : Request → String}
  {e : Endpoint} {path text : String}

/-- A post goes to the endpoint that its target leads to. -/
theorem respond_eq_serve (hmethod : r.method = "POST")
    (htarget : Endpoint.ofTarget? r.target = some e) (he : "POST" ∈ e.methods) :
    s.respond x r explain = s.serve x r e explain := by
  have hoptions : r.method ≠ "OPTIONS" := by
    rw [hmethod]
    decide
  rw [respond, if_neg hoptions, htarget]
  exact if_pos (hmethod ▸ he)

theorem respond_post (h : r.Posts e.path text) (he : "POST" ∈ e.methods) :
    s.respond x r explain = s.serve x r e explain :=
  respond_eq_serve h.method (h.target ▸ e.ofTarget?_path) he

/-- A body that is announced as JSON and not too large is read. -/
theorem takeBody_of_announced {α : Type} (reader : Node → Except Fault α)
    (htype : MediaType.AnnouncesJson r.contentType) (hsize : r.body.size ≤ maxBody) :
    takeBody reader r =
      (reader (Document.ofMarks (.decode r.body)).root).mapError fun f => .body (.ofFault f) := by
  rw [takeBody, if_neg (not_not_intro htype), if_neg (Nat.not_lt.mpr hsize)]

/-- **The body of a post is read as the value that it is a text of.** -/
theorem takeBody_post {v : Value} (h : r.Posts path text) (htext : v.IsText text.toList) :
    ∃ n : Node, n.meaning? = some v ∧ ∀ {α : Type} (reader : Node → Except Fault α),
      takeBody reader r = (reader n).mapError fun f => .body (.ofFault f) := by
  obtain ⟨n, hn, hdocument⟩ := htext.document
  refine ⟨n, hn, fun reader => ?_⟩
  have hsize : r.body.size ≤ maxBody := by
    rw [h.body]
    exact h.size
  rw [takeBody_of_announced reader h.contentType hsize, h.body, Text.Marks.decode_toUTF8,
    hdocument]

end Service

end QueryPrep
