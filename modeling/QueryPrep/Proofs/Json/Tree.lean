import QueryPrep.Json.Record
import QueryPrep.Proofs.Json.Token

/-!
# Trees and their texts

A whole value in a document is a `Node` all of whose containers are closed. It is written as its
tokens in order (`Node.tokens`), and it means a value if its numbers are in range and its strings
stand for characters (`Node.meaning?`). A text of a value is a text of the tokens of any tree with
that meaning (`Value.IsText`): so white space, escapes, the spelling of numbers and repeated keys
are all left open.

Main results: the tree of a text is built from its tokens again, whatever follows them
(`Node.ofTokens_tokens`); a tree is kept exactly if it means something that is not nested too deep
(`Node.keep_eq_some_iff`); and so a text of a value is read as a document with this value as its
root and nothing behind it (`Value.IsText.document`), and it is a text of no other value
(`Value.IsText.unique`).
-/

namespace QueryPrep.Json

namespace Node

/-! ### Tokens and meaning of a tree -/

mutual

/-- The tokens of a whole value. -/
def tokens : Node → List Token
  | null => [.null]
  | bool b => [.bool b]
  | number x => [.number x]
  | string s => [.string s]
  | array [] _ => [.openArray, .closeArray]
  | array (n :: ns) _ => .openArray :: tokens n ++ itemTokens ns ++ [.closeArray]
  | object [] _ => [.openObject, .closeObject]
  | object ((k, n) :: ms) _ =>
    .openObject :: .string k :: .colon :: tokens n ++ memberTokens ms ++ [.closeObject]
  | broken => [.bad]

/-- The items behind the first one. -/
def itemTokens : List Node → List Token
  | [] => []
  | n :: ns => .comma :: tokens n ++ itemTokens ns

/-- The members behind the first one. -/
def memberTokens : List (Option String × Node) → List Token
  | [] => []
  | (k, n) :: ms => .comma :: .string k :: .colon :: tokens n ++ memberTokens ms

end

mutual

/-- What a whole value means, however deep it is nested. -/
def meaning? : Node → Option Value
  | null => some .null
  | bool b => some (.bool b)
  | number x => x.number?.map .number
  | string s => s.map .string
  | array items true => (itemMeanings? items).map .array
  | object members true => (memberMeanings? members).map .object
  | _ => none

def itemMeanings? : List Node → Option (List Value)
  | [] => some []
  | n :: ns => do return (← meaning? n) :: (← itemMeanings? ns)

def memberMeanings? : List (Option String × Node) → Option (List (String × Value))
  | [] => some []
  | (k, n) :: ms => do return (← k, ← meaning? n) :: (← memberMeanings? ms)

end

end Node

namespace Value

mutual

/-- How many containers lie in each other. -/
def depth : Value → Nat
  | array items => 1 + itemsDepth items
  | object members => 1 + membersDepth members
  | _ => 0

def itemsDepth : List Value → Nat
  | [] => 0
  | v :: vs => max (depth v) (itemsDepth vs)

def membersDepth : List (String × Value) → Nat
  | [] => 0
  | (_, v) :: ms => max (depth v) (membersDepth ms)

end

theorem itemsDepth_le {vs : List Value} {k : Nat} (h : ∀ v ∈ vs, v.depth ≤ k) :
    itemsDepth vs ≤ k := by
  induction vs with
  | nil => exact Nat.zero_le k
  | cons v vs ih =>
      exact Nat.max_le.mpr ⟨h v List.mem_cons_self, ih fun w hw => h w (List.mem_cons_of_mem _ hw)⟩

/-- The texts of a value. -/
def IsText (v : Value) (cs : List Char) : Prop :=
  ∃ n : Node, n.meaning? = some v ∧ Token.IsText n.tokens cs

end Value

namespace Node

variable {n : Node} {ns : List Node} {ms : List (Option String × Node)} {v : Value}
  {vs : List Value} {members : List (String × Value)}

theorem itemMeanings?_cons_eq_some_iff : itemMeanings? (n :: ns) = some vs ↔
    ∃ w ws, meaning? n = some w ∧ itemMeanings? ns = some ws ∧ vs = w :: ws := by
  simp only [itemMeanings?, Option.bind_eq_bind, Option.bind_eq_some_iff, Option.pure_def,
    Option.some.injEq, @eq_comm _ vs]
  tauto

theorem memberMeanings?_cons_eq_some_iff {k : Option String} :
    memberMeanings? ((k, n) :: ms) = some members ↔ ∃ key w ws, k = some key ∧
      meaning? n = some w ∧ memberMeanings? ms = some ws ∧ members = (key, w) :: ws := by
  simp only [memberMeanings?, Option.bind_eq_bind, Option.bind_eq_some_iff, Option.pure_def,
    Option.some.injEq, @eq_comm _ members]
  tauto

/-- A tree that means an array. -/
theorem meaning?_eq_array_iff : n.meaning? = some (.array vs) ↔
    ∃ ns, n = .array ns true ∧ itemMeanings? ns = some vs := by
  cases n with
  | array items closed =>
      cases closed <;> simp [meaning?]
  | object members closed => cases closed <;> simp [meaning?]
  | number x => simp [meaning?]
  | _ => simp [meaning?]

/-- A tree that means an object. -/
theorem meaning?_eq_object_iff : n.meaning? = some (.object members) ↔
    ∃ ms, n = .object ms true ∧ memberMeanings? ms = some members := by
  cases n with
  | array items closed => cases closed <;> simp [meaning?]
  | object ms closed => cases closed <;> simp [meaning?]
  | number x => simp [meaning?]
  | _ => simp [meaning?]

/-- A tree that means an object with one member. -/
theorem meaning?_eq_member_iff {k : String} : n.meaning? = some (.object [(k, v)]) ↔
    ∃ m, n = .object [(some k, m)] true ∧ m.meaning? = some v := by
  rw [meaning?_eq_object_iff]
  constructor
  · rintro ⟨ms, rfl, hms⟩
    rcases ms with - | ⟨⟨key, m⟩, ms⟩
    · simp [memberMeanings?] at hms
    · obtain ⟨key, w, ws, rfl, hm, hrest, heq⟩ := memberMeanings?_cons_eq_some_iff.mp hms
      obtain ⟨hmember, rfl⟩ := List.cons.inj heq
      obtain ⟨rfl, rfl⟩ := Prod.mk.inj hmember
      rcases ms with - | ⟨⟨_, _⟩, ms⟩
      · exact ⟨m, rfl, hm⟩
      · obtain ⟨_, _, _, _, _, _, hcons⟩ := memberMeanings?_cons_eq_some_iff.mp hrest
        contradiction
  · rintro ⟨m, rfl, hm⟩
    exact ⟨_, rfl, memberMeanings?_cons_eq_some_iff.mpr ⟨k, v, [], rfl, hm, rfl, rfl⟩⟩

theorem meaning?_eq_string_iff {s : String} :
    n.meaning? = some (.string s) ↔ n = .string (some s) := by
  cases n with
  | array items closed => cases closed <;> simp [meaning?]
  | object ms closed => cases closed <;> simp [meaning?]
  | number x => simp [meaning?]
  | _ => simp [meaning?]

/-! ### Neighbours -/

theorem separated_append {ts us : List Token} (hts : Token.Separated ts) (hus : Token.Separated us)
    (h : (∀ t ∈ ts.getLast?, t.isMark = true) ∨ ∀ u ∈ us.head?, u.isMark = true) :
    Token.Separated (ts ++ us) := by
  refine List.isChain_append.mpr ⟨hts, hus, fun t ht u hu => ?_⟩
  exact h.imp (fun h => h t ht) (fun h => h u hu)

theorem separated_mark_cons {t : Token} {ts : List Token} (ht : t.isMark = true)
    (hts : Token.Separated ts) : Token.Separated (t :: ts) :=
  List.isChain_cons.mpr ⟨fun _ _ => .inl ht, hts⟩

mutual

/-- In a tree every value has marks around it. -/
theorem separated_tokens : (n : Node) → Token.Separated n.tokens
  | null | bool _ | number _ | string _ | broken => List.isChain_singleton _
  | array [] _ => separated_mark_cons rfl (List.isChain_singleton _)
  | array (n :: ns) _ => by
      have hitems := separated_itemTokens ns .closeArray rfl
      rw [tokens, List.append_assoc]
      exact separated_mark_cons rfl
        (separated_append (separated_tokens n) hitems.1 (.inr hitems.2))
  | object [] _ => separated_mark_cons rfl (List.isChain_singleton _)
  | object ((k, n) :: ms) _ => by
      have hmembers := separated_memberTokens ms .closeObject rfl
      rw [tokens, List.append_assoc]
      refine separated_mark_cons rfl (List.isChain_cons_cons.mpr ⟨.inr rfl, ?_⟩)
      exact separated_mark_cons rfl
        (separated_append (separated_tokens n) hmembers.1 (.inr hmembers.2))

theorem separated_itemTokens : (ns : List Node) → (t : Token) → t.isMark = true →
    Token.Separated (itemTokens ns ++ [t]) ∧ ∀ u ∈ (itemTokens ns ++ [t]).head?, u.isMark = true
  | [], t, ht => ⟨List.isChain_singleton _, fun u hu => Option.some.inj hu ▸ ht⟩
  | n :: ns, t, ht => by
      have hitems := separated_itemTokens ns t ht
      rw [itemTokens, List.append_assoc]
      exact ⟨separated_mark_cons rfl
        (separated_append (separated_tokens n) hitems.1 (.inr hitems.2)),
        fun u hu => Option.some.inj hu ▸ rfl⟩

theorem separated_memberTokens : (ms : List (Option String × Node)) → (t : Token) →
    t.isMark = true → Token.Separated (memberTokens ms ++ [t]) ∧
      ∀ u ∈ (memberTokens ms ++ [t]).head?, u.isMark = true
  | [], t, ht => ⟨List.isChain_singleton _, fun u hu => Option.some.inj hu ▸ ht⟩
  | (k, n) :: ms, t, ht => by
      have hmembers := separated_memberTokens ms t ht
      rw [memberTokens, List.append_assoc]
      refine ⟨separated_mark_cons rfl (List.isChain_cons_cons.mpr ⟨.inr rfl, ?_⟩),
        fun u hu => Option.some.inj hu ▸ rfl⟩
      exact separated_mark_cons rfl
        (separated_append (separated_tokens n) hmembers.1 (.inr hmembers.2))

end

/-! ### Building a tree again -/

/-- Goes on from what a step has come to. -/
def proceed : Context ⊕ Node → List Token → Node × List Token
  | .inl x, ts => build x ts
  | .inr n, ts => (n, ts)

theorem build_cons (x : Context) (t : Token) (ts : List Token) :
    build x (t :: ts) = proceed (step x t) ts := by
  rw [build]
  rcases step x t with y | n <;> rfl

theorem proceed_inl (x : Context) (ts : List Token) : proceed (.inl x) ts = build x ts :=
  rfl

section

variable (fs : List Frame) (b : Bool) (ts : List Token)

/-- An array may be opened wherever a value may stand. -/
theorem build_openArray : build ⟨fs, .value b⟩ (.openArray :: ts) =
    build ⟨.array [] :: fs, .value true⟩ ts := by
  rw [build_cons]
  cases b <;> rcases fs with - | ⟨_ | _, fs⟩ <;> rfl

theorem build_openObject : build ⟨fs, .value b⟩ (.openObject :: ts) =
    build ⟨.object [] none :: fs, .key true⟩ ts := by
  rw [build_cons]
  cases b <;> rcases fs with - | ⟨_ | _, fs⟩ <;> rfl

/-- A key with its colon, in front of the first member or of a later one. -/
theorem build_key (before : List (Option String × Node)) (k : Option String) :
    build ⟨.object before none :: fs, .key b⟩ (.string k :: .colon :: ts) =
      build ⟨.object before k :: fs, .value false⟩ ts := by
  have hkey : step ⟨.object before none :: fs, .key b⟩ (.string k) =
      .inl ⟨.object before k :: fs, .colon⟩ := by
    cases b <;> rfl
  rw [build_cons, hkey, proceed_inl, build_cons]
  rfl

end

mutual

/-- A whole value is built where a value may stand, and put into what lies around it. -/
theorem build_tokens : (n : Node) → (v : Value) → n.meaning? = some v → (fs : List Frame) →
    (mayClose : Bool) → (rest : List Token) →
    build ⟨fs, .value mayClose⟩ (n.tokens ++ rest) = proceed (settle n fs) rest
  | null, _, _, fs, b, rest | bool _, _, _, fs, b, rest | number _, _, _, fs, b, rest
  | string _, _, _, fs, b, rest => by
      rw [tokens, List.singleton_append, build_cons]
      cases b <;> rcases fs with - | ⟨_ | _, fs⟩ <;> rfl
  | array [] true, _, _, fs, b, rest => by
      rw [tokens, List.cons_append, build_openArray, List.singleton_append, build_cons]
      rfl
  | array (n :: ns) true, v, h, fs, b, rest => by
      rw [meaning?, Option.map_eq_some_iff] at h
      obtain ⟨vs, hitems, -⟩ := h
      obtain ⟨w, ws, hn, hns, -⟩ := itemMeanings?_cons_eq_some_iff.mp hitems
      rw [tokens, List.append_assoc, List.append_assoc, List.cons_append, build_openArray,
        build_tokens n w hn]
      exact build_itemTokens ns ws hns [n] fs rest
  | object [] true, _, _, fs, b, rest => by
      rw [tokens, List.cons_append, build_openObject, List.singleton_append, build_cons]
      rfl
  | object ((k, n) :: ms) true, v, h, fs, b, rest => by
      rw [meaning?, Option.map_eq_some_iff] at h
      obtain ⟨members, hmembers, -⟩ := h
      obtain ⟨key, w, ws, -, hn, hms, -⟩ := memberMeanings?_cons_eq_some_iff.mp hmembers
      rw [tokens, List.append_assoc, List.append_assoc, List.cons_append, build_openObject,
        List.cons_append, List.cons_append, build_key, build_tokens n w hn]
      exact build_memberTokens ms ws hms [(k, n)] fs rest
  -- containers that are not closed have no tokens of their own to be built from, and no meaning
  | array _ false, _, h, _, _, _ | object _ false, _, h, _, _, _ | broken, _, h, _, _, _ => by
      simp [meaning?] at h

/-- The items behind those that have been put into an array, and its end. -/
theorem build_itemTokens : (ns : List Node) → (vs : List Value) → itemMeanings? ns = some vs →
    (before : List Node) → (fs : List Frame) → (rest : List Token) →
    build ⟨.array before :: fs, .next⟩ (itemTokens ns ++ ([.closeArray] ++ rest)) =
      proceed (settle (.array (before.reverse ++ ns) true) fs) rest
  | [], _, _, before, fs, rest => by
      rw [itemTokens, List.nil_append, List.singleton_append, build_cons, List.append_nil]
      rfl
  | n :: ns, vs, h, before, fs, rest => by
      obtain ⟨w, ws, hn, hns, -⟩ := itemMeanings?_cons_eq_some_iff.mp h
      have hcomma : step ⟨.array before :: fs, .next⟩ .comma =
          .inl ⟨.array before :: fs, .value false⟩ := rfl
      rw [itemTokens, List.append_assoc, List.cons_append, build_cons, hcomma, proceed_inl,
        build_tokens n w hn]
      have hlater := build_itemTokens ns ws hns (n :: before) fs rest
      rw [List.reverse_cons, List.append_assoc, List.singleton_append] at hlater
      exact hlater

/-- The members behind those that have been put into an object, and its end. -/
theorem build_memberTokens : (ms : List (Option String × Node)) → (vs : List (String × Value)) →
    memberMeanings? ms = some vs → (before : List (Option String × Node)) → (fs : List Frame) →
    (rest : List Token) →
    build ⟨.object before none :: fs, .next⟩ (memberTokens ms ++ ([.closeObject] ++ rest)) =
      proceed (settle (.object (before.reverse ++ ms) true) fs) rest
  | [], _, _, before, fs, rest => by
      rw [memberTokens, List.nil_append, List.singleton_append, build_cons, List.append_nil]
      rfl
  | (k, n) :: ms, vs, h, before, fs, rest => by
      obtain ⟨key, w, ws, -, hn, hms, -⟩ := memberMeanings?_cons_eq_some_iff.mp h
      have hcomma : step ⟨.object before none :: fs, .next⟩ .comma =
          .inl ⟨.object before none :: fs, .key false⟩ := rfl
      rw [memberTokens, List.append_assoc, List.cons_append, build_cons, hcomma, proceed_inl,
        List.cons_append, List.cons_append, build_key, build_tokens n w hn]
      have hlater := build_memberTokens ms ws hms ((k, n) :: before) fs rest
      rw [List.reverse_cons, List.append_assoc, List.singleton_append] at hlater
      exact hlater

end

/-- **The tokens of a whole value are built into it**, and what follows is left. -/
theorem ofTokens_tokens (h : n.meaning? = some v) (rest : List Token) :
    ofTokens (n.tokens ++ rest) = (n, rest) := by
  rw [ofTokens, build_tokens n v h]
  rfl

/-! ### Keeping a tree -/

theorem keepItems_cons_eq_some_iff {levels : Nat} : keepItems levels (n :: ns) = some vs ↔
    ∃ w ws, keep levels n = some w ∧ keepItems levels ns = some ws ∧ vs = w :: ws := by
  rw [keepItems]
  rcases keep levels n with - | w <;> rcases keepItems levels ns with - | ws <;> simp [eq_comm]

theorem keepMembers_cons_eq_some_iff {levels : Nat} {k : Option String} :
    keepMembers levels ((k, n) :: ms) = some members ↔ ∃ key w ws, k = some key ∧
      keep levels n = some w ∧ keepMembers levels ms = some ws ∧ members = (key, w) :: ws := by
  rcases k with - | key
  · simp [keepMembers]
  · rcases hn : keep levels n with - | w
    · simp [keepMembers, hn]
    · rcases hms : keepMembers levels ms with - | ws <;> simp [keepMembers, hn, hms, eq_comm]

mutual

/-- **A tree is kept if it means a value that is not nested too deep**, and as this value. -/
theorem keep_eq_some_iff : (n : Node) → (levels : Nat) → (v : Value) →
    (keep levels n = some v ↔ n.meaning? = some v ∧ v.depth ≤ levels)
  | null, _, v => by
      simp only [keep, meaning?, Option.some.injEq, iff_self_and]
      rintro rfl
      exact Nat.zero_le _
  | bool _, _, v => by
      simp only [keep, meaning?, Option.some.injEq, iff_self_and]
      rintro rfl
      exact Nat.zero_le _
  | number _, _, v => by
      simp only [keep, meaning?, Option.map_eq_some_iff, iff_self_and]
      rintro ⟨x, -, rfl⟩
      exact Nat.zero_le _
  | string _, _, v => by
      simp only [keep, meaning?, Option.map_eq_some_iff, iff_self_and]
      rintro ⟨s, -, rfl⟩
      exact Nat.zero_le _
  | array items true, levels, v => by
      rw [keep, meaning?]
      rcases levels with - | levels
      · simp only [if_true, Option.map_eq_some_iff]
        constructor
        · rintro ⟨⟩
        · rintro ⟨⟨vs, -, rfl⟩, hdepth⟩
          rw [Value.depth] at hdepth
          omega
      · rw [if_neg (Nat.succ_ne_zero levels), Nat.add_sub_cancel]
        simp only [Option.map_eq_some_iff, keepItems_eq_some_iff items]
        constructor
        · rintro ⟨vs, ⟨hvs, hdepth⟩, rfl⟩
          exact ⟨⟨vs, hvs, rfl⟩, by rw [Value.depth]; omega⟩
        · rintro ⟨⟨vs, hvs, rfl⟩, hdepth⟩
          rw [Value.depth] at hdepth
          exact ⟨vs, ⟨hvs, by omega⟩, rfl⟩
  | object members true, levels, v => by
      rw [keep, meaning?]
      rcases levels with - | levels
      · simp only [if_true, Option.map_eq_some_iff]
        constructor
        · rintro ⟨⟩
        · rintro ⟨⟨vs, -, rfl⟩, hdepth⟩
          rw [Value.depth] at hdepth
          omega
      · rw [if_neg (Nat.succ_ne_zero levels), Nat.add_sub_cancel]
        simp only [Option.map_eq_some_iff, keepMembers_eq_some_iff members]
        constructor
        · rintro ⟨vs, ⟨hvs, hdepth⟩, rfl⟩
          exact ⟨⟨vs, hvs, rfl⟩, by rw [Value.depth]; omega⟩
        · rintro ⟨⟨vs, hvs, rfl⟩, hdepth⟩
          rw [Value.depth] at hdepth
          exact ⟨vs, ⟨hvs, by omega⟩, rfl⟩
  | array _ false, _, _ | object _ false, _, _ | broken, _, _ => by simp [keep, meaning?]

theorem keepItems_eq_some_iff : (ns : List Node) → (levels : Nat) → (vs : List Value) →
    (keepItems levels ns = some vs ↔ itemMeanings? ns = some vs ∧ Value.itemsDepth vs ≤ levels)
  | [], _, vs => by
      simp only [keepItems, itemMeanings?, Option.some.injEq, iff_self_and]
      rintro rfl
      exact Nat.zero_le _
  | n :: ns, levels, vs => by
      rw [keepItems_cons_eq_some_iff, itemMeanings?_cons_eq_some_iff]
      constructor
      · rintro ⟨w, ws, hn, hns, rfl⟩
        obtain ⟨hn, hw⟩ := (keep_eq_some_iff n levels w).mp hn
        obtain ⟨hns, hws⟩ := (keepItems_eq_some_iff ns levels ws).mp hns
        exact ⟨⟨w, ws, hn, hns, rfl⟩, Nat.max_le.mpr ⟨hw, hws⟩⟩
      · rintro ⟨⟨w, ws, hn, hns, rfl⟩, hdepth⟩
        obtain ⟨hw, hws⟩ := Nat.max_le.mp hdepth
        exact ⟨w, ws, (keep_eq_some_iff n levels w).mpr ⟨hn, hw⟩,
          (keepItems_eq_some_iff ns levels ws).mpr ⟨hns, hws⟩, rfl⟩

theorem keepMembers_eq_some_iff : (ms : List (Option String × Node)) → (levels : Nat) →
    (vs : List (String × Value)) → (keepMembers levels ms = some vs ↔
      memberMeanings? ms = some vs ∧ Value.membersDepth vs ≤ levels)
  | [], _, vs => by
      simp only [keepMembers, memberMeanings?, Option.some.injEq, iff_self_and]
      rintro rfl
      exact Nat.zero_le _
  | (k, n) :: ms, levels, vs => by
      rw [keepMembers_cons_eq_some_iff, memberMeanings?_cons_eq_some_iff]
      constructor
      · rintro ⟨key, w, ws, hk, hn, hms, rfl⟩
        obtain ⟨hn, hw⟩ := (keep_eq_some_iff n levels w).mp hn
        obtain ⟨hms, hws⟩ := (keepMembers_eq_some_iff ms levels ws).mp hms
        exact ⟨⟨key, w, ws, hk, hn, hms, rfl⟩, Nat.max_le.mpr ⟨hw, hws⟩⟩
      · rintro ⟨⟨key, w, ws, hk, hn, hms, rfl⟩, hdepth⟩
        obtain ⟨hw, hws⟩ := Nat.max_le.mp hdepth
        exact ⟨key, w, ws, hk, (keep_eq_some_iff n levels w).mpr ⟨hn, hw⟩,
          (keepMembers_eq_some_iff ms levels ws).mpr ⟨hms, hws⟩, rfl⟩

end

end Node

/-! ### Documents -/

namespace Value

variable {v w : Value}

/-- **A text of a value is a document that holds it**, and nothing else. -/
theorem IsText.document {s : String} (h : v.IsText s.toList) :
    ∃ n : Node, n.meaning? = some v ∧ Document.ofMarks (.ofString s) = ⟨n, false⟩ := by
  obtain ⟨n, hn, htext⟩ := h
  have hbuilt := Node.ofTokens_tokens hn []
  rw [List.append_nil] at hbuilt
  refine ⟨n, hn, ?_⟩
  rw [Document.ofMarks, Text.Marks.ofString, Token.lex_of_isText htext (Node.separated_tokens n),
    hbuilt]
  rfl

/-- No text is a text of two values. -/
theorem IsText.unique {text : String} (hv : v.IsText text.toList) (hw : w.IsText text.toList) :
    v = w := by
  obtain ⟨n, hn, hdocument⟩ := hv.document
  obtain ⟨m, hm, hdocument'⟩ := hw.document
  obtain rfl := congrArg Document.root (hdocument.symm.trans hdocument')
  exact Option.some.inj (hn.symm.trans hm)

end Value

end QueryPrep.Json
