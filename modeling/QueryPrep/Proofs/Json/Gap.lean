import QueryPrep.Proofs.Json.Kept
import QueryPrep.Proofs.Json.Lexing

/-!
# Documents with a gap

A field of a record has its value between two parts of a text: the part in front leads to a place in
the outermost container, behind the name of the field or behind as many items as there are fields
before it, and the part behind is read on from there (`Document.HasGap`). While a text is read, what
the outermost container holds already is only held (`Node.Steady`), so whatever the value is, the
rest of the document is the same.

Main results: the texts of all values in a gap are read as one document with a gap, filled with the
values (`Document.HasGap.exists_gap`), and reading a record from a document with a gap is reading
what is in the gap and going on (`Shape.exists_read_put`), where a relation that all fields keep is
kept to the end (`Shape.Keeps`).
-/

namespace QueryPrep.Json

open Text (Marks)

namespace Node

variable {x y : Context} {t : Token} {ts us : List Token} {fs : List Frame}

/-! ### Going on from a place -/

/-- The place to which tokens lead, unless one of them has ended the value. -/
def follow (x : Context) : List Token → Option Context
  | [] => some x
  | t :: ts =>
    match step x t with
    | .inl y => follow y ts
    | .inr _ => none

theorem follow_cons_eq_some_iff :
    follow x (t :: ts) = some y ↔ ∃ z, step x t = .inl z ∧ follow z ts = some y := by
  rw [follow]
  rcases step x t with z | n <;> simp

theorem follow_concat_eq_some_iff :
    follow x (ts ++ [t]) = some y ↔ ∃ z, follow x ts = some z ∧ step z t = .inl y := by
  induction ts generalizing x with
  | nil =>
      rw [List.nil_append, follow_cons_eq_some_iff]
      simp [follow]
  | cons u ts ih =>
      simp only [List.cons_append, follow_cons_eq_some_iff, ih]
      tauto

/-- What follows is built from the place that has been reached. -/
theorem build_append (h : follow x ts = some y) (us : List Token) :
    build x (ts ++ us) = build y us := by
  induction ts generalizing x with
  | nil => rw [Option.some.inj h, List.nil_append]
  | cons t ts ih =>
      obtain ⟨z, hz, hts⟩ := follow_cons_eq_some_iff.mp h
      rw [List.cons_append, build_cons, hz]
      exact ih hts

theorem step_bad (x : Context) : step x .bad = .inr x.giveUp := by
  obtain ⟨fs, p⟩ := x
  rcases p with (_ | _) | (_ | _) | - | - <;> rcases fs with - | ⟨_ | _, fs⟩ <;> rfl

/-- What is no token leads nowhere. -/
theorem bad_not_mem (h : follow x ts = some y) : .bad ∉ ts := by
  induction ts generalizing x with
  | nil => exact List.not_mem_nil
  | cons t ts ih =>
      obtain ⟨z, hz, hts⟩ := follow_cons_eq_some_iff.mp h
      rintro (_ | ⟨_, hmem⟩)
      · cases (step_bad x).symm.trans hz
      · exact ih hts hmem

theorem place_of_settle {n : Node} (h : settle n fs = .inl y) : y.place = .next := by
  rcases fs with - | ⟨_ | _, fs⟩ <;> cases h <;> rfl

/-- A value may only stand behind a mark of punctuation. -/
theorem isMark_of_step {b : Bool} (h : step x t = .inl ⟨fs, .value b⟩) : t.isMark = true := by
  obtain ⟨gs, p⟩ := x
  by_contra hmark
  have hnext : ∀ n hs, settle n hs ≠ .inl ⟨fs, .value b⟩ := fun n hs hsettle =>
    absurd (place_of_settle hsettle) (by simp)
  rcases p with (_ | _) | (_ | _) | - | - <;> rcases gs with - | ⟨_ | _, gs⟩ <;> cases t <;>
    first
    | exact hmark rfl
    | exact absurd h (hnext _ _)
    | cases h

/-! ### The outermost container -/

/-- The containers there are. -/
inductive Kind where
  | array
  | object

namespace Kind

/-- What a container of this kind holds. -/
abbrev Held : Kind → Type
  | array => Node
  | object => Option String × Node

/-- A container that is open, with what it holds so far, last one first. An object also knows the
key whose value is being read. -/
def frame : (κ : Kind) → List κ.Held → Option String → Frame
  | array, items, _ => .array items
  | object, members, k => .object members k

/-- A container with what it holds, first one first. -/
def node : (κ : Kind) → List κ.Held → Bool → Node
  | array, items, closed => .array items closed
  | object, members, closed => .object members closed

/-- A value as it is held. -/
def hold : (κ : Kind) → Option String → Node → κ.Held
  | array, _, n => n
  | object, k, n => (k, n)

end Kind

variable {κ : Kind}

/-- What a step comes to may depend on what the outermost container holds already only in that this
is still held, in front of all that has been read since. -/
def Steady (κ : Kind) (r : List κ.Held → Context ⊕ Node) : Prop :=
  (∃ fs acc k p, ∀ held, r held = .inl ⟨fs ++ [κ.frame (acc ++ held) k], p⟩) ∨
    ∃ more closed, ∀ held, r held = .inr (κ.node (held.reverse ++ more) closed)

theorem steady_settle (n : Node) (fs : List Frame) (acc : List κ.Held) (k : Option String) :
    Steady κ fun held => settle n (fs ++ [κ.frame (acc ++ held) k]) := by
  rcases fs with - | ⟨_ | _, fs⟩
  · cases κ with
    | array => exact .inl ⟨[], n :: acc, none, .next, fun _ => rfl⟩
    | object => exact .inl ⟨[], (k, n) :: acc, none, .next, fun _ => rfl⟩
  · exact .inl ⟨_ :: fs, acc, k, .next, fun _ => rfl⟩
  · exact .inl ⟨_ :: fs, acc, k, .next, fun _ => rfl⟩

theorem steady_cutOff (n : Node) (fs : List Frame) (acc : List κ.Held) (k : Option String) :
    ∃ more, ∀ held, cutOff n (fs ++ [κ.frame (acc ++ held) k]) =
      κ.node (held.reverse ++ more) false := by
  induction fs generalizing n with
  | nil =>
      cases κ with
      | array => exact ⟨(n :: acc).reverse, fun held => by simp [Kind.frame, Kind.node, cutOff]⟩
      | object =>
          exact ⟨((k, n) :: acc).reverse, fun held => by simp [Kind.frame, Kind.node, cutOff]⟩
  | cons f fs ih => cases f <;> exact ih _

theorem giveUp_cons (f : Frame) (fs : List Frame) (p : Place) :
    Context.giveUp ⟨f :: fs, p⟩ = cutOff (Context.giveUp ⟨[f], p⟩) fs := by
  cases p <;> cases f <;> rfl

theorem steady_giveUp (fs : List Frame) (acc : List κ.Held) (k : Option String) (p : Place) :
    ∃ more, ∀ held, Context.giveUp ⟨fs ++ [κ.frame (acc ++ held) k], p⟩ =
      κ.node (held.reverse ++ more) false := by
  cases fs with
  | nil =>
      have hbroken := steady_cutOff .broken [] acc k
      have hheld : ∃ more, ∀ held, κ.node (acc ++ held).reverse false =
          κ.node (held.reverse ++ more) false := ⟨acc.reverse, by simp⟩
      cases κ <;> cases p <;> first | exact hbroken | exact hheld
  | cons f fs =>
      obtain ⟨more, hmore⟩ := steady_cutOff (Context.giveUp ⟨[f], p⟩) fs acc k
      exact ⟨more, fun held => (giveUp_cons f _ p).trans (hmore held)⟩

theorem steady_beginValue (fs : List Frame) (acc : List κ.Held) (k : Option String) (t : Token) :
    Steady κ fun held => beginValue (fs ++ [κ.frame (acc ++ held) k]) t := by
  unfold beginValue
  split
  · exact .inl ⟨.array [] :: fs, acc, k, .value true, fun _ => rfl⟩
  · exact .inl ⟨.object [] none :: fs, acc, k, .key true, fun _ => rfl⟩
  · split
    · exact steady_settle _ fs acc k
    · obtain ⟨more, hmore⟩ := steady_cutOff .broken fs acc k
      exact .inr ⟨more, false, fun held => congrArg Sum.inr (hmore held)⟩

theorem steady_step (fs : List Frame) (acc : List κ.Held) (k : Option String) (p : Place)
    (t : Token) : Steady κ fun held => step ⟨fs ++ [κ.frame (acc ++ held) k], p⟩ t := by
  have hvalue := steady_beginValue fs acc k t
  have hgiveUp : Steady κ fun held =>
      .inr (Context.giveUp ⟨fs ++ [κ.frame (acc ++ held) k], p⟩) := by
    obtain ⟨more, hmore⟩ := steady_giveUp fs acc k p
    exact .inr ⟨more, false, fun held => congrArg Sum.inr (hmore held)⟩
  cases fs with
  | nil =>
      -- the outermost container is the innermost one as well
      have hclose : Steady κ fun held => .inr (κ.node (acc ++ held).reverse true) :=
        .inr ⟨acc.reverse, true, fun held => by simp⟩
      have hmove : ∀ k' p', Steady κ fun held => .inl ⟨[κ.frame (acc ++ held) k'], p'⟩ :=
        fun k' p' => .inl ⟨[], acc, k', p', fun _ => rfl⟩
      cases κ <;> rcases p with (_ | _) | (_ | _) | - | - <;> cases t <;>
        first | exact hvalue | exact hclose | exact hmove _ _ | exact hmove k _ | exact hgiveUp
  | cons f fs =>
      have hmove : ∀ f' p',
          Steady κ fun held => .inl ⟨f' :: (fs ++ [κ.frame (acc ++ held) k]), p'⟩ :=
        fun f' p' => .inl ⟨f' :: fs, acc, k, p', fun _ => rfl⟩
      cases f <;> rcases p with (_ | _) | (_ | _) | - | - <;> cases t <;>
        first | exact hvalue | exact steady_settle _ fs acc k | exact hmove _ _ | exact hgiveUp

/-- **What the outermost container holds already has no influence on what is read.** -/
theorem exists_build (fs : List Frame) (acc : List κ.Held) (k : Option String) (p : Place)
    (ts : List Token) : ∃ more closed rest, ∀ held,
      build ⟨fs ++ [κ.frame (acc ++ held) k], p⟩ ts =
        (κ.node (held.reverse ++ more) closed, rest) := by
  -- what is found of the rest is the same for all that may be held, because each step is steady
  induction ts generalizing fs acc k p with
  | nil =>
      obtain ⟨more, hmore⟩ := steady_giveUp fs acc k p
      exact ⟨more, false, [], fun held => congrArg (·, []) (hmore held)⟩
  | cons t ts ih =>
      simp only [build_cons]
      obtain ⟨gs, acc', k', p', hstep⟩ | ⟨more, closed, hstep⟩ := steady_step fs acc k p t
      · obtain ⟨more, closed, rest, hbuild⟩ := ih gs acc' k' p'
        exact ⟨more, closed, rest, fun held =>
          (congrArg (proceed · ts) (hstep held)).trans (hbuild held)⟩
      · exact ⟨more, closed, ts, fun held => congrArg (proceed · ts) (hstep held)⟩

/-! ### Gaps -/

variable {name : String} {i : Nat}

/-- The place where a field has its value: behind its name in the outermost object, or behind as
many items of the outermost array as there are fields before it. -/
inductive Context.IsAt (name : String) (i : Nat) : Context → Prop where
  | member (ms : List (Option String × Node)) :
      IsAt name i ⟨[.object ms (some name)], .value false⟩
  | item {items : List Node} (h : items.length = i) (mayClose : Bool) :
      IsAt name i ⟨[.array items], .value mayClose⟩

/-- A document with a gap where a field has its value. -/
inductive Gap (name : String) (i : Nat) : (Node → Node) → Prop where
  | member (before behind : List (Option String × Node)) (closed : Bool) :
      Gap name i fun n => .object (before ++ (some name, n) :: behind) closed
  | item {before : List Node} (h : before.length = i) (behind : List Node) (closed : Bool) :
      Gap name i fun n => .array (before ++ n :: behind) closed

/-- What is read where the outermost container waits for a value becomes what it holds next. -/
theorem exists_build_tokens (held : List κ.Held) (k : Option String) (mayClose : Bool)
    (us : List Token) : ∃ more closed rest, ∀ m v, m.meaning? = some v →
      build ⟨[κ.frame held k], .value mayClose⟩ (m.tokens ++ us) =
        (κ.node (held.reverse ++ κ.hold k m :: more) closed, rest) := by
  obtain ⟨more, closed, rest, hbuild⟩ := @exists_build κ [] [] none .next us
  refine ⟨more, closed, rest, fun m v hm => ?_⟩
  rw [build_tokens m v hm]
  have hheld := hbuild (κ.hold k m :: held)
  rw [List.reverse_cons, List.append_assoc, List.singleton_append] at hheld
  cases κ <;> exact hheld

/-- A place for a value is reached by a mark of punctuation. -/
theorem isMark_of_follow {b : Bool} (h : follow ⟨[], .value false⟩ ts = some ⟨fs, .value b⟩) :
    ∀ t ∈ ts.getLast?, t.isMark = true := by
  intro t ht
  obtain ⟨ts, rfl⟩ := List.getLast?_eq_some_iff.mp ht
  obtain ⟨z, -, hstep⟩ := follow_concat_eq_some_iff.mp h
  exact isMark_of_step hstep

end Node

namespace Document

variable {name : String} {i : Nat} {front behind : Marks}

/-- The document of a text is one with a gap, filled with a value. -/
def Holds (put : Node → Node) (s : Marks) (v : Value) : Prop :=
  ∃ m : Node, m.meaning? = some v ∧ (ofMarks s).root = put m

/-- **The text of a value between two parts of a text is read as this value**, if the part in front
leads to a place for a value and the part behind does not go on with a numeral; and the rest of the
document is the same for all values. -/
theorem exists_holds {κ : Node.Kind} {held : List κ.Held} {k : Option String} {b : Bool}
    (hfollow : Node.follow ⟨[], .value false⟩ (Token.lex front) =
      some ⟨[κ.frame held k], .value b⟩) (hends : Numeral.Ends behind) :
    ∃ more closed, ∀ (v : Value) (cs : List Char), v.IsText cs →
      Holds (fun m => κ.node (held.reverse ++ κ.hold k m :: more) closed)
        (front ++ cs.map some ++ behind) v := by
  obtain ⟨more, closed, rest, hbuild⟩ := Node.exists_build_tokens held k b (Token.lex behind)
  refine ⟨more, closed, fun v cs ⟨m, hm, htext⟩ => ⟨m, hm, ?_⟩⟩
  rw [ofMarks, List.append_assoc,
    Token.lex_append (Node.bad_not_mem hfollow) (Node.isMark_of_follow hfollow),
    Token.lex_append_of_isText htext (Node.separated_tokens m) hends, Node.ofTokens,
    Node.build_append hfollow, hbuild m v hm]

/-- Between two parts of a text a field has its value: the part in front leads to it, and the part
behind does not go on with a numeral. -/
structure HasGap (name : String) (i : Nat) (front behind : Marks) : Prop where
  place : ∃ x, Node.follow ⟨[], .value false⟩ (Token.lex front) = some x ∧ x.IsAt name i
  ends : Numeral.Ends behind

/-- **The document of a text with a gap has a gap as well**, which holds the value whose text stands
in the gap of the text. -/
theorem HasGap.exists_gap (h : HasGap name i front behind) : ∃ put, Node.Gap name i put ∧
    ∀ (v : Value) (cs : List Char), v.IsText cs → Holds put (front ++ cs.map some ++ behind) v := by
  obtain ⟨x, hfollow, hx⟩ := h.place
  cases hx with
  | member ms =>
      obtain ⟨more, closed, hholds⟩ :=
        @exists_holds front behind .object ms (some name) false hfollow h.ends
      exact ⟨_, .member ms.reverse more closed, hholds⟩
  | @item items hlength b =>
      obtain ⟨more, closed, hholds⟩ :=
        @exists_holds front behind .array items none b hfollow h.ends
      exact ⟨_, .item (List.length_reverse.trans hlength) more closed, hholds⟩

end Document

/-! ### Records -/

namespace Shape

variable {σ α : Type} {fields : List (RecordField σ)} {shape : Shape σ α} {f : RecordField σ}
  {R : σ → σ → Prop} {d d' e : σ} {ms before behind : List (Option String × Node)}
  {ns items : List Node} {i : Nat} {a : α} {b : Bool} {n : Node} {put : Node → Node}

/-- Reading the same into related drafts leads to related drafts. -/
structure Keeps (fields : List (RecordField σ)) (R : σ → σ → Prop) : Prop where
  isFilled : ∀ f ∈ fields, ∀ d d', R d d' → f.isFilled d = f.isFilled d'
  read : ∀ f ∈ fields, ∀ n d d' e, R d d' → f.read n d = .ok e → ∃ e', f.read n d' = .ok e' ∧ R e e'

theorem Keeps.of_subset {fewer : List (RecordField σ)} (h : Keeps fields R)
    (hfewer : ∀ f ∈ fewer, f ∈ fields) : Keeps fewer R :=
  ⟨fun f hf => h.isFilled f (hfewer f hf), fun f hf => h.read f (hfewer f hf)⟩

theorem Keeps.readMember (h : Keeps fields R) {key : Option String} (hd : R d d')
    (hread : readMember fields key n d = .ok e) :
    ∃ e', readMember fields key n d' = .ok e' ∧ R e e' := by
  cases key with
  | none => cases hread
  | some k =>
      rw [Shape.readMember] at hread ⊢
      rcases hfind : fields.find? (·.name = k) with - | f
      · simp only [hfind] at hread ⊢
        split_ifs at hread ⊢
        exact ⟨d', rfl, Except.ok.inj hread ▸ hd⟩
      · have hf : f ∈ fields := List.mem_of_find?_eq_some hfind
        simp only [hfind] at hread ⊢
        rw [← h.isFilled f hf d d' hd]
        split_ifs at hread ⊢
        exact h.read f hf n d d' e hd hread

theorem Keeps.readMembers (h : Keeps fields R) (hd : R d d')
    (hread : readMembers fields ms d = .ok e) :
    ∃ e', readMembers fields ms d' = .ok e' ∧ R e e' := by
  induction ms generalizing d d' with
  | nil => exact ⟨d', rfl, Except.ok.inj hread ▸ hd⟩
  | cons m ms ih =>
      obtain ⟨d₁, hm, hms⟩ := readMembers_cons_eq_ok hread
      obtain ⟨d₁', hm', hd₁⟩ := h.readMember hd hm
      obtain ⟨e', hms', he⟩ := ih hd₁ hms
      exact ⟨e', bind_eq_ok_iff.mpr ⟨d₁', hm', hms'⟩, he⟩

theorem readItems_nil (fields : List (RecordField σ)) (d : σ) :
    readItems fields [] d = .ok (d, false) := by
  cases fields <;> rfl

theorem Keeps.readItems (h : Keeps fields R) (hd : R d d')
    (hread : readItems fields ns d = .ok (e, b)) :
    ∃ e', readItems fields ns d' = .ok (e', b) ∧ R e e' := by
  induction ns generalizing fields d d' with
  | nil =>
      rw [readItems_nil] at hread ⊢
      obtain ⟨rfl, rfl⟩ := Prod.mk.inj (Except.ok.inj hread)
      exact ⟨d', rfl, hd⟩
  | cons n ns ih =>
      cases fields with
      | nil =>
          obtain ⟨rfl, rfl⟩ := Prod.mk.inj (Except.ok.inj hread)
          exact ⟨d', rfl, hd⟩
      | cons f fields =>
          obtain ⟨d₁, hn, hns⟩ := readItems_cons_eq_ok hread
          obtain ⟨d₁', hn', hd₁⟩ := h.read f List.mem_cons_self n d d' d₁ hd hn
          have hlater : Keeps fields R := h.of_subset fun _ => List.mem_cons_of_mem f
          obtain ⟨e', hns', he⟩ := ih hlater hd₁ hns
          exact ⟨e', bind_eq_ok_iff.mpr ⟨d₁', hn', hns'⟩, he⟩

theorem readItems_append (before behind : List Node) (hlength : before.length ≤ fields.length)
    (d : σ) : readItems fields (before ++ behind) d =
      readItems fields before d >>= fun p => readItems (fields.drop before.length) behind p.1 := by
  induction before generalizing fields d with
  | nil => cases fields <;> rfl
  | cons n before ih =>
      cases fields with
      | nil => simp at hlength
      | cons f fields =>
          rw [List.cons_append, Shape.readItems, Shape.readItems, bind_assoc]
          simp only [ih (Nat.le_of_succ_le_succ hlength)]
          rfl

/-- A record from the items of an array, if all of them have been taken. -/
def conclude (shape : Shape σ α) (p : σ × Bool) : Except Fault α := do
  let a ← shape.finishDraft p.1
  if p.2 then .error .malformed else .ok a

theorem read_array_closed (items : List Node) : shape.read (.array items true) =
    readItems shape.fields items shape.empty >>= shape.conclude := by
  rw [read]
  rcases readItems shape.fields items shape.empty with e | ⟨d, b⟩
  · rfl
  · simp [conclude, bind, Except.bind]

theorem conclude_eq_ok_iff :
    shape.conclude (d, b) = .ok a ↔ b = false ∧ shape.finish d = some a := by
  rw [conclude, bind_eq_ok_iff]
  simp only [finishDraft_eq_ok_iff]
  cases b <;> simp

/-- A record is read from a whole value. -/
theorem isComplete_of_read (h : shape.read n = .ok a) : n.isComplete = true := by
  cases n with
  | object ms closed => exact (read_object_eq_ok_iff.mp h).1
  | array ns closed => exact (read_array_eq_ok_iff.mp h).1
  | broken => cases h
  | _ => rfl

/-- **Reading a document with a gap is reading what is in the gap and going on.** Once the gap is
filled with something that is read, a relation that the fields keep is kept to the end. -/
theorem exists_read_put (hnames : (shape.fields.map (·.name)).Nodup)
    (hf : shape.fields[i]? = some f) (hput : Node.Gap f.name i put)
    (h : shape.read (put n) = .ok a) : ∃ (d : σ) (go : σ → Except Fault α),
      (∀ m, shape.read (put m) = f.read m d >>= go) ∧
      ∀ R, Keeps shape.fields R → ∀ d₁ d₂ a₁, R d₁ d₂ → go d₁ = .ok a₁ →
        ∃ e₁ e₂, R e₁ e₂ ∧ shape.finish e₁ = some a₁ ∧
          ∀ a₂, shape.finish e₂ = some a₂ → go d₂ = .ok a₂ := by
  have hmem : f ∈ shape.fields := List.mem_of_getElem? hf
  cases hput with
  | member before behind closed =>
      obtain ⟨rfl, d', hread, -⟩ := read_object_eq_ok_iff.mp h
      rw [readMembers_append] at hread
      obtain ⟨d, hbefore, hread⟩ := bind_eq_ok_iff.mp hread
      obtain ⟨d₁, hn, -⟩ := readMembers_cons_eq_ok hread
      rw [readMember_eq_ite hnames hmem] at hn
      -- nothing was there for the field before, or its second value would have been refused
      split_ifs at hn with hfree
      refine ⟨d, fun d₁ => readMembers shape.fields behind d₁ >>= shape.finishDraft,
        fun m => ?_, ?_⟩
      · rw [read, readMembers_append, hbefore]
        change (readMember _ _ _ _ >>= _) >>= _ = _
        rw [readMember_eq_ite hnames hmem, if_neg hfree, bind_assoc]
        rfl
      · intro R hR d₁ d₂ a₁ hd hgo
        obtain ⟨e₁, hread₁, hfinish⟩ := bind_eq_ok_iff.mp hgo
        obtain ⟨e₂, hread₂, he⟩ := hR.readMembers hd hread₁
        refine ⟨e₁, e₂, he, finishDraft_eq_ok_iff.mp hfinish, fun a₂ ha₂ => ?_⟩
        exact bind_eq_ok_iff.mpr ⟨e₂, hread₂, finishDraft_eq_ok_iff.mpr ha₂⟩
  | @item before hlength behind closed =>
      obtain ⟨rfl, d', hread, -⟩ := read_array_eq_ok_iff.mp h
      obtain ⟨hi, hget⟩ := List.getElem?_eq_some_iff.mp hf
      have hdrop : shape.fields.drop before.length = f :: shape.fields.drop (i + 1) := by
        rw [hlength, List.drop_eq_getElem_cons hi, hget]
      have happend := fun ns => readItems_append before ns (hlength ▸ hi.le) shape.empty
      rw [happend] at hread
      obtain ⟨⟨d, b⟩, hbefore, -⟩ := bind_eq_ok_iff.mp hread
      refine ⟨d, fun d₁ => readItems (shape.fields.drop (i + 1)) behind d₁ >>= shape.conclude,
        fun m => ?_, ?_⟩
      · rw [read_array_closed, happend, hbefore]
        change readItems _ (m :: behind) d >>= _ = _
        rw [hdrop, readItems, bind_assoc]
      · intro R hR d₁ d₂ a₁ hd hgo
        have hlater : Keeps (shape.fields.drop (i + 1)) R :=
          hR.of_subset fun _ => List.mem_of_mem_drop
        obtain ⟨⟨e₁, b⟩, hread₁, hconclude⟩ := bind_eq_ok_iff.mp hgo
        obtain ⟨rfl, hfinish⟩ := conclude_eq_ok_iff.mp hconclude
        obtain ⟨e₂, hread₂, he⟩ := hlater.readItems hd hread₁
        refine ⟨e₁, e₂, he, hfinish, fun a₂ ha₂ => ?_⟩
        exact bind_eq_ok_iff.mpr ⟨(e₂, false), hread₂, conclude_eq_ok_iff.mpr ⟨rfl, ha₂⟩⟩

end Shape
end QueryPrep.Json
