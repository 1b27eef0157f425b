import QueryPrep.Command.Run
import QueryPrep.Proofs.Json.Integer
import QueryPrep.Proofs.Split.Outcome
import QueryPrep.Split.Reading

/-!
# Chunks as texts

A chunk is written as an array of the literals of its bounds, and nothing else is read as a chunk
than two literals in brackets, with white space wherever it may stand (`Chunk.IsText`). Each integer
has one literal, so a text is read as one chunk at most, and writing that chunk again strips the
white space and changes nothing else.

Main results: the texts of a chunk are those that are read as this chunk
(`Chunk.parse_eq_ok_iff`), and what the service and the command line write of a split is read as the
chunks of this split (`SplitResult.encodings_read_back`).
-/

namespace QueryPrep

open QueryPrep.Json

/-! ### Reading bounds -/

theorem readMillis_eq_ok_iff {n : Node} {i : Int} :
    readMillis n = .ok i ↔ n.meaning? = some (.int i) ∧ Millis.Fits i :=
  Node.integer_eq_ok_iff

/-- Of the arrays only pairs are read as bounds. -/
theorem BoundsDraft.read_array_eq_ok_iff {items : List Node} {closed : Bool} {b : Int × Int} :
    shape.read (.array items closed) = .ok b ↔ closed = true ∧
      ∃ m n, items = [m, n] ∧ readMillis m = .ok b.1 ∧ readMillis n = .ok b.2 := by
  obtain ⟨x, y⟩ := b
  rw [Shape.read_array_eq_ok_iff]
  refine and_congr_right fun _ => ?_
  rcases items with - | ⟨m, - | ⟨n, - | ⟨k, rest⟩⟩⟩ <;>
    simp [shape, Shape.readItems, bind_eq_ok_iff, pure, Except.pure]

/-! ### Reading chunks -/

namespace Chunk

variable {c : Chunk} {cs : List Chunk} {chunks : Option (List Chunk)} {n : Node} {ns : List Node}
  {text : String}

/-- **A chunk is read from what means it**, if its bounds are in range. -/
theorem ofNode_eq_ok_iff : ofNode n = .ok c ↔ c.Fits ∧ n.meaning? = some c.toValue := by
  obtain ⟨first, last⟩ := c
  rw [toValue, Node.meaning?_eq_array_iff]
  simp only [Node.itemMeanings?_eq_pair_iff]
  cases n with
  | array items closed =>
      have hmap : ofNode (.array items closed) = .ok ⟨first, last⟩ ↔
          BoundsDraft.shape.read (.array items closed) = .ok (first, last) := by
        rw [ofNode]
        · rcases BoundsDraft.shape.read (.array items closed) with e | ⟨x, y⟩ <;> simp
        · intro ms closed' h
          cases h
      rw [hmap, BoundsDraft.read_array_eq_ok_iff]
      simp only [readMillis_eq_ok_iff, Node.array.injEq]
      constructor
      · rintro ⟨rfl, m, n, rfl, ⟨hm, hfirst⟩, hn, hlast⟩
        exact ⟨⟨hfirst, hlast⟩, _, ⟨rfl, rfl⟩, m, n, rfl, hm, hn⟩
      · rintro ⟨⟨hfirst, hlast⟩, _, ⟨rfl, rfl⟩, m, n, rfl, hm, hn⟩
        exact ⟨rfl, m, n, rfl, ⟨hm, hfirst⟩, hn, hlast⟩
  | object ms closed => simp [ofNode]
  | _ => simp [ofNode, Shape.read]

theorem itemsOfNodes_eq_ok_iff : itemsOfNodes ns = .ok cs ↔
    (∀ c ∈ cs, c.Fits) ∧ Node.itemMeanings? ns = some (cs.map toValue) := by
  induction ns generalizing cs with
  | nil => cases cs <;> simp [itemsOfNodes, Node.itemMeanings?]
  | cons n ns ih =>
      simp only [itemsOfNodes, bind_eq_ok_iff, ofNode_eq_ok_iff, ih,
        Node.itemMeanings?_cons_eq_some_iff]
      constructor
      · rintro ⟨c, ⟨hc, hn⟩, cs', ⟨hcs, hns⟩, h⟩
        obtain rfl := Except.ok.inj h
        exact ⟨List.forall_mem_cons.mpr ⟨hc, hcs⟩, _, _, hn, hns, rfl⟩
      · rintro ⟨hcs, w, ws, hn, hns, h⟩
        obtain ⟨c, cs, rfl, rfl, rfl⟩ := List.map_eq_cons_iff.mp h
        obtain ⟨hc, hcs⟩ := List.forall_mem_cons.mp hcs
        exact ⟨c, ⟨hc, hn⟩, cs, ⟨hcs, hns⟩, rfl⟩

/-- Chunks are read from what means them. -/
theorem listOfNode_eq_ok_iff : listOfNode n = .ok cs ↔
    (∀ c ∈ cs, c.Fits) ∧ n.meaning? = some (listToValue cs) := by
  rw [listToValue, Node.meaning?_eq_array_iff]
  cases n with
  | array items closed =>
      rw [listOfNode, bind_eq_ok_iff]
      simp only [itemsOfNodes_eq_ok_iff, Node.array.injEq]
      cases closed with
      | false => simp
      | true =>
          constructor
          · rintro ⟨_, h, heq⟩
            obtain rfl := Except.ok.inj heq
            exact ⟨h.1, _, ⟨rfl, rfl⟩, h.2⟩
          · rintro ⟨hcs, _, ⟨rfl, -⟩, hns⟩
            exact ⟨cs, ⟨hcs, hns⟩, rfl⟩
  | _ => simp [listOfNode]

/-- Chunks or null are read from what means them. -/
theorem orNull_eq_ok_iff : n.orNull listOfNode = .ok chunks ↔
    (∀ cs ∈ chunks, ∀ c ∈ cs, c.Fits) ∧
      n.meaning? = some (chunks.elim .null listToValue) := by
  by_cases hnull : n = .null
  · subst hnull
    cases chunks <;> simp [Node.orNull, Node.meaning?, listToValue]
  · have hread : n.orNull listOfNode = some <$> listOfNode n := by
      rw [Node.orNull]
      exact hnull
    rw [hread]
    cases chunks with
    | none =>
        rw [Option.elim_none, Node.meaning?_eq_null_iff]
        rcases listOfNode n with e | cs <;> simp [hnull]
    | some cs =>
        have hsome : some <$> listOfNode n = .ok (some cs) ↔ listOfNode n = .ok cs := by
          rcases listOfNode n with e | ds <;> simp
        rw [hsome, listOfNode_eq_ok_iff]
        simp

/-! ### Texts of a chunk -/

/-- The texts of a chunk: the literals of its bounds in brackets, with white space as one likes. -/
def IsText (c : Chunk) (cs : List Char) : Prop :=
  ∃ b₀ b₁ b₂ b₃ b₄ b₅ x y, (∀ b ∈ [b₀, b₁, b₂, b₃, b₄, b₅], Token.IsBlank b) ∧
    Numeral.IsLiteral c.first x ∧ Numeral.IsLiteral c.last y ∧
    cs = b₀ ++ '[' :: b₁ ++ x ++ b₂ ++ ',' :: b₃ ++ y ++ b₄ ++ ']' :: b₅

/-- **A text is read as a chunk exactly if it is one of its texts**, and the chunk is in range. -/
theorem parse_eq_ok_iff : parse text = .ok c ↔ c.Fits ∧ c.IsText text.toList := by
  rw [parse, Document.read_eq_ok_iff]
  simp only [ofNode_eq_ok_iff]
  constructor
  · rintro ⟨root, hdocument, hfits, hmeaning⟩
    refine ⟨hfits, ?_⟩
    have hcomplete := Node.isComplete_of_meaning? hmeaning
    obtain ⟨items, rfl, hitems⟩ := Node.meaning?_eq_array_iff.mp hmeaning
    obtain ⟨m, n, rfl, hm, hn⟩ := Node.itemMeanings?_eq_pair_iff.mp hitems
    obtain ⟨x, rfl, hx⟩ := Node.meaning?_eq_int_iff.mp hm
    obtain ⟨y, rfl, hy⟩ := Node.meaning?_eq_int_iff.mp hn
    have htokens : (Node.array [.number x, .number y] true).tokens =
      [.openArray, .number x, .comma, .number y, .closeArray] := rfl
    have htext := Document.isText_tokens hdocument hcomplete (by simp [htokens])
      (by simp [htokens])
    rw [htokens] at htext
    -- five tokens, each with white space in front of it, and white space behind the last one
    obtain ⟨b₀, _, r₀, hb₀, ⟨⟩, h₀, htext⟩ := Token.exists_of_isText_cons htext
    obtain ⟨b₁, xs, r₁, hb₁, hxs, h₁, rfl⟩ := Token.exists_of_isText_cons h₀
    obtain ⟨b₂, _, r₂, hb₂, ⟨⟩, h₂, rfl⟩ := Token.exists_of_isText_cons h₁
    obtain ⟨b₃, ys, r₃, hb₃, hys, h₃, rfl⟩ := Token.exists_of_isText_cons h₂
    obtain ⟨b₄, _, b₅, hb₄, ⟨⟩, h₄, rfl⟩ := Token.exists_of_isText_cons h₃
    obtain ⟨hb₅⟩ := h₄
    refine ⟨b₀, b₁, b₂, b₃, b₄, b₅, xs, ys, ?_, ?_, ?_, ?_⟩
    · simp only [List.forall_mem_cons, hb₀, hb₁, hb₂, hb₃, hb₄, hb₅, true_and]
      exact fun b hb => absurd hb List.not_mem_nil
    · exact Numeral.isLiteral_of_number? (Token.isTokenText_number_iff.mp hxs) hx
    · exact Numeral.isLiteral_of_number? (Token.isTokenText_number_iff.mp hys) hy
    · simpa using htext
  · rintro ⟨hfits, b₀, b₁, b₂, b₃, b₄, b₅, x, y, hblanks, hx, hy, htext⟩
    have hvalue : c.toValue.IsText text.toList := by
      simp only [List.forall_mem_cons] at hblanks
      obtain ⟨hb₀, hb₁, hb₂, hb₃, hb₄, hb₅, -⟩ := hblanks
      obtain ⟨m, hm, hmtext⟩ := Value.isText_int (isPlain_int hfits.1)
      obtain ⟨n, hn, hntext⟩ := Value.isText_int (isPlain_int hfits.2)
      refine ⟨.array [m, n] true, ?_, ?_⟩
      · exact Node.meaning?_eq_array_iff.mpr
          ⟨_, rfl, Node.itemMeanings?_eq_pair_iff.mpr ⟨m, n, rfl, hm, hn⟩⟩
      · have hopen := Token.IsText.cons hb₀ .openArray (hmtext.blank_append hb₁)
        have hcomma := Token.IsText.cons hb₂ .comma (hntext.blank_append hb₃)
        have hclose := Token.IsText.cons hb₄ .closeArray (.nil hb₅)
        rw [Numeral.isLiteral_iff.mp hx, Numeral.isLiteral_iff.mp hy] at htext
        have hall := (hopen.append hcomma).append hclose
        simpa [Node.tokens, Node.itemTokens, htext, Value.int, Value.write] using hall
    obtain ⟨n, hn, hdocument⟩ := hvalue.document
    exact ⟨n, hdocument, hfits, hn⟩

/-- The one text of a chunk that has no white space is the one that is written. -/
theorem render_toValue (c : Chunk) : c.toValue.render =
    "[" ++ Decimal.render c.first ++ "," ++ Decimal.render c.last ++ "]" := by
  rw [← String.toList_inj]
  simp [toValue, Value.render, Value.int, Value.write, Value.writeItems, Decimal.render]

theorem isPlain_orNull (h : ∀ cs ∈ chunks, ∀ c ∈ cs, c.Fits) :
    (chunks.elim .null listToValue).isPlain = true := by
  cases chunks with
  | none => rfl
  | some cs => exact isPlain_listToValue (h cs rfl)

/-- Chunks or null, with white space behind them, are read again. -/
theorem read_orNull_render (h : ∀ cs ∈ chunks, ∀ c ∈ cs, c.Fits) {blanks : List Char}
    (hblanks : Token.IsBlank blanks) :
    Document.read (Node.orNull listOfNode)
      ((chunks.elim .null listToValue).render ++ String.ofList blanks) = .ok chunks := by
  have htext : (chunks.elim .null listToValue).IsText
      ((chunks.elim .null listToValue).render ++ String.ofList blanks).toList := by
    rw [String.toList_append, String.toList_ofList]
    exact (Value.isText_render (isPlain_orNull h)).append_blank hblanks
  obtain ⟨n, hn, hdocument⟩ := htext.document
  exact Document.read_eq_ok_iff.mpr ⟨n, hdocument, orNull_eq_ok_iff.mpr ⟨h, hn⟩⟩

end Chunk

/-! ### Results -/

namespace SplitResult

variable {r : SplitResult} {n : Node}

/-- A result is read from what means it. -/
theorem read_of_meaning? (hfits : ∀ cs ∈ r.chunks, ∀ c ∈ cs, c.Fits)
    (hcount : r.count < UInt64.size) (hn : n.meaning? = some r.toValue) :
    shape.read n = .ok r := by
  obtain ⟨ms, rfl, hms⟩ := Node.meaning?_eq_object_iff.mp hn
  obtain ⟨m, n, rfl, hm, hn⟩ := Node.memberMeanings?_eq_pair_iff.mp hms
  have hchunks : m.orNull Chunk.listOfNode = .ok r.chunks := Chunk.orNull_eq_ok_iff.mpr ⟨hfits, hm⟩
  have hnumber : n.integer 0 (UInt64.size - 1) = .ok r.count :=
    Node.integer_eq_ok_iff.mpr ⟨hn, by omega⟩
  rw [show (UInt64.size : Int) - 1 = 18446744073709551615 from rfl] at hnumber
  refine Shape.read_object_eq_ok_iff.mpr ⟨rfl, ⟨some r.chunks, some r.count⟩, ?_, rfl⟩
  simp [shape, Shape.readMembers, Shape.readMember, hchunks, hnumber, bind, Except.bind, pure,
    Except.pure]

theorem isPlain_toValue (hfits : ∀ cs ∈ r.chunks, ∀ c ∈ cs, c.Fits)
    (hcount : r.count < UInt64.size) : r.toValue.isPlain = true := by
  have hsize : UInt64.size = 2 ^ 64 := rfl
  have hint : (Value.int r.count).isPlain = true := by
    simp only [Value.int, Value.isPlain, Bool.and_eq_true, decide_eq_true_eq]
    omega
  simp [toValue, Value.isPlain, Value.membersArePlain, Chunk.isPlain_orNull hfits, hint]

/-- A result is read again from the text that is written of it. -/
theorem parse_render (hfits : ∀ cs ∈ r.chunks, ∀ c ∈ cs, c.Fits) (hcount : r.count < UInt64.size) :
    parse r.toValue.render = .ok r := by
  obtain ⟨n, hn, hdocument⟩ := (Value.isText_render (isPlain_toValue hfits hcount)).document
  exact Document.read_eq_ok_iff.mpr ⟨n, hdocument, read_of_meaning? hfits hcount hn⟩

/-- **What is written of a split is read as its chunks**, with their number from the service and in
a line from the command line. A chunk is read from its texts and from nothing else, and writing it
again leaves the two literals and no white space. -/
theorem encodings_read_back {chunks : Option (List Chunk)}
    (hfits : ∀ cs ∈ chunks, ∀ c ∈ cs, c.Fits) (hcount : ∀ cs ∈ chunks, cs.length < UInt64.size) :
    parse (ofChunks chunks).toValue.render = .ok ⟨chunks, (chunks.map List.length).getD 0⟩ ∧
      (∀ (split : Except Refusal (List Chunk)) (cap : Nat) (files : FileTree)
        (events : Refusal → List LogEvent), split.toOption = chunks →
          Document.read (Node.orNull Chunk.listOfNode)
            (Command.answerSplit .json cap files events split).output = .ok chunks) ∧
      (∀ (text : String) (c : Chunk),
        Chunk.parse text = .ok c ↔ c.Fits ∧ c.IsText text.toList) ∧
      ∀ c : Chunk, c.toValue.render =
        "[" ++ Decimal.render c.first ++ "," ++ Decimal.render c.last ++ "]" := by
  refine ⟨?_, ?_, fun _ _ => Chunk.parse_eq_ok_iff, Chunk.render_toValue⟩
  · have hlength : (ofChunks chunks).count < UInt64.size := by
      cases chunks with
      | none => decide
      | some cs => exact hcount cs rfl
    rw [parse_render hfits hlength]
    cases chunks <;> rfl
  · rintro split cap files events rfl
    have hline : Token.IsBlank ['\n'] := Token.isBlank_singleton (.inr (.inl rfl))
    have hread := Chunk.read_orNull_render hfits hline
    cases split with
    | ok cs => exact hread
    | error r => exact hread

/-- Bounds at both limits, the lower of which has no opposite in 64 bits, and white space around
them; a negative zero is no literal. -/
theorem encodings_read_back_extreme :
    let c : Chunk := ⟨-9223372036854775808, 9223372036854775807⟩
    let chunks := some [c, ⟨0, -1⟩]
    (∀ cs ∈ chunks, ∀ c ∈ cs, c.Fits) ∧ (∀ cs ∈ chunks, cs.length < UInt64.size) ∧
      parse (ofChunks chunks).toValue.render = .ok ⟨chunks, 2⟩ ∧
      Document.read (Node.orNull Chunk.listOfNode)
        "[[-9223372036854775808,9223372036854775807],[0,-1]]\n" = .ok chunks ∧
      (Chunk.parse " [\n-9223372036854775808,\t9223372036854775807 ]\r").toOption = some c ∧
      (Chunk.parse "[-0,1]").toOption = none ∧
      c.toValue.render = "[-9223372036854775808,9223372036854775807]" := by
  intro c chunks
  have hfits : ∀ cs ∈ chunks, ∀ c ∈ cs, c.Fits := by
    intro cs hcs
    obtain rfl := Option.some.inj hcs
    decide
  have hcount : ∀ cs ∈ chunks, cs.length < UInt64.size := by
    intro cs hcs
    obtain rfl := Option.some.inj hcs
    decide
  obtain ⟨hparse, hline, -, hrender⟩ := encodings_read_back hfits hcount
  have hwritten :
      (Command.answerSplit .json 2 ⟨[], [], []⟩ (fun _ => []) (.ok [c, ⟨0, -1⟩])).output =
      "[[-9223372036854775808,9223372036854775807],[0,-1]]\n" := by decide +kernel
  refine ⟨hfits, hcount, hparse, ?_, by decide +kernel, by decide +kernel, hrender c⟩
  rw [← hwritten]
  exact hline _ _ _ _ rfl

end SplitResult

end QueryPrep
