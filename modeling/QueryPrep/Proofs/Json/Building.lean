import QueryPrep.Proofs.Json.Tree

/-!
# What a tree has been built from

While a text is read, the place where it goes on knows what has been read so far: the containers
that are open with what they hold, and whether a key or a comma came last (`Node.Leads`). One more
token leads to the next place or ends the value (`Node.Leads.step`).

Main result: a complete tree has been built from its own tokens (`Node.eq_of_ofTokens`).
-/

namespace QueryPrep.Json.Node

variable {n m : Node} {ns items : List Node} {ms members : List (Option String × Node)}
  {k : Option String} {fs : List Frame} {x y : Context} {t : Token} {ts us rest : List Token}

/-! ### Tokens that have been read -/

/-- Items, each with the comma behind it. -/
def itemsAhead (ns : List Node) : List Token :=
  ns.flatMap fun n => n.tokens ++ [.comma]

/-- Members, each with the comma behind it. -/
def membersAhead (ms : List (Option String × Node)) : List Token :=
  ms.flatMap fun m => .string m.1 :: .colon :: m.2.tokens ++ [.comma]

/-- What has been read of a container that waits for a value. -/
def Frame.tokens : Frame → List Token
  | .array items => .openArray :: itemsAhead items.reverse
  | .object ms k => .openObject :: membersAhead ms.reverse ++ [.string k, .colon]

/-- What has been read of all open containers that wait for a value. -/
def framesTokens (fs : List Frame) : List Token :=
  fs.reverse.flatMap Frame.tokens

theorem framesTokens_cons (f : Frame) (fs : List Frame) :
    framesTokens (f :: fs) = framesTokens fs ++ f.tokens := by
  simp [framesTokens]

theorem itemsAhead_concat (ns : List Node) (n : Node) :
    itemsAhead (ns ++ [n]) = itemsAhead ns ++ n.tokens ++ [.comma] := by
  simp [itemsAhead]

theorem membersAhead_concat (ms : List (Option String × Node)) (k : Option String) (n : Node) :
    membersAhead (ms ++ [(k, n)]) =
      membersAhead ms ++ .string k :: .colon :: n.tokens ++ [.comma] := by
  simp [membersAhead]

/-- The commas may as well be seen in front of the items. -/
theorem itemsAhead_append_tokens (ns : List Node) (n : Node) :
    .comma :: (itemsAhead ns ++ n.tokens) = itemTokens (ns ++ [n]) := by
  induction ns with
  | nil => simp [itemsAhead, itemTokens]
  | cons a ns ih =>
      rw [List.cons_append, itemTokens, ← ih]
      simp [itemsAhead]

theorem membersAhead_append_tokens (ms : List (Option String × Node)) (k : Option String)
    (n : Node) : .comma :: (membersAhead ms ++ .string k :: .colon :: n.tokens) =
      memberTokens (ms ++ [(k, n)]) := by
  induction ms with
  | nil => simp [membersAhead, memberTokens]
  | cons a ms ih =>
      rw [List.cons_append, memberTokens, ← ih]
      simp [membersAhead]

theorem tokens_array_concat (ns : List Node) (n : Node) (closed : Bool) :
    (array (ns ++ [n]) closed).tokens =
      .openArray :: itemsAhead ns ++ n.tokens ++ [.closeArray] := by
  have hcomma := itemsAhead_append_tokens ns n
  cases ns with
  | nil => simp [itemsAhead, tokens, itemTokens]
  | cons a ns =>
      rw [List.cons_append, itemTokens, List.cons_append, List.cons.injEq] at hcomma
      rw [List.cons_append, tokens, List.cons_append, ← hcomma.2]
      simp

theorem tokens_object_concat (ms : List (Option String × Node)) (k : Option String) (n : Node)
    (closed : Bool) : (object (ms ++ [(k, n)]) closed).tokens =
      .openObject :: membersAhead ms ++ .string k :: .colon :: n.tokens ++ [.closeObject] := by
  have hcomma := membersAhead_append_tokens ms k n
  cases ms with
  | nil => simp [membersAhead, tokens, memberTokens]
  | cons a ms =>
      rw [List.cons_append, memberTokens, List.cons_append, List.cons.injEq] at hcomma
      rw [List.cons_append, tokens, List.cons_append, ← hcomma.2]
      simp

/-- The tokens that lead to a place. -/
inductive Leads : List Token → Context → Prop where
  | value {fs : List Frame} {mayClose : Bool}
      (h : mayClose = true → ∃ gs, fs = .array [] :: gs) :
      Leads (framesTokens fs) ⟨fs, .value mayClose⟩
  | key {fs : List Frame} {ms : List (Option String × Node)} {mayClose : Bool}
      (h : mayClose = true → ms = []) :
      Leads (framesTokens fs ++ .openObject :: membersAhead ms.reverse)
        ⟨.object ms none :: fs, .key mayClose⟩
  | colon {fs : List Frame} {ms : List (Option String × Node)} {k : Option String} :
      Leads (framesTokens fs ++ .openObject :: membersAhead ms.reverse ++ [.string k])
        ⟨.object ms k :: fs, .colon⟩
  | item {fs : List Frame} {items : List Node} {n : Node} :
      Leads (framesTokens fs ++ .openArray :: itemsAhead items.reverse ++ n.tokens)
        ⟨.array (n :: items) :: fs, .next⟩
  | member {fs : List Frame} {ms : List (Option String × Node)} {k : Option String} {n : Node} :
      Leads (framesTokens fs ++ .openObject :: membersAhead ms.reverse ++
        .string k :: .colon :: n.tokens) ⟨.object ((k, n) :: ms) none :: fs, .next⟩

theorem Leads.congr (h : Leads ts x) (hts : ts = us) : Leads us x :=
  hts ▸ h

/-! ### One more token -/

/-- What has been read, from what a step has come to: the tokens lead there, or they are those of
the value, unless it is incomplete. -/
def Reads (ts : List Token) : Context ⊕ Node → Prop
  | .inl x => Leads ts x
  | .inr n => n.isComplete = true → ts = n.tokens

theorem isComplete_cutOff (h : n.isComplete = false) (fs : List Frame) :
    (cutOff n fs).isComplete = false := by
  induction fs generalizing n with
  | nil => exact h
  | cons f fs ih => cases f <;> exact ih rfl

theorem isComplete_giveUp (x : Context) : x.giveUp.isComplete = false := by
  unfold Context.giveUp
  split <;> exact isComplete_cutOff rfl _

theorem reads_of_incomplete (h : n.isComplete = false) (ts : List Token) : Reads ts (.inr n) :=
  fun hcomplete => absurd hcomplete (by simp [h])

theorem reads_settle (n : Node) (fs : List Frame) :
    Reads (framesTokens fs ++ n.tokens) (settle n fs) := by
  cases fs with
  | nil => exact fun _ => rfl
  | cons f fs =>
      rw [framesTokens_cons]
      cases f with
      | array items => exact Leads.item.congr (by simp [Frame.tokens])
      | object ms k => exact Leads.member.congr (by simp [Frame.tokens])

theorem tokens_of_scalar? (h : scalar? t = some n) : n.tokens = [t] := by
  cases t <;> cases h <;> rfl

theorem reads_beginValue (fs : List Frame) (t : Token) :
    Reads (framesTokens fs ++ [t]) (beginValue fs t) := by
  unfold beginValue
  split
  · have h : Leads _ ⟨.array [] :: fs, .value true⟩ := .value fun _ => ⟨fs, rfl⟩
    rwa [framesTokens_cons] at h
  · exact .key fun _ => rfl
  · split
    · rename_i n hscalar
      rw [← tokens_of_scalar? hscalar]
      exact reads_settle n fs
    · exact reads_of_incomplete (isComplete_cutOff rfl fs) _

/-- **One more token leads to the next place**, or it is the last one of the value. -/
theorem Leads.step (h : Leads ts x) (t : Token) : Reads (ts ++ [t]) (step x t) := by
  cases h with
  | @value fs mayClose hclose =>
      cases mayClose with
      | false =>
          have hstep : Node.step ⟨fs, .value false⟩ t = beginValue fs t := by
            rcases fs with - | ⟨_ | _, fs⟩ <;> rfl
          rw [hstep]
          exact reads_beginValue fs t
      | true =>
          obtain ⟨fs, rfl⟩ := hclose rfl
          by_cases ht : t = .closeArray
          · subst ht
            rw [framesTokens_cons, List.append_assoc]
            exact reads_settle (.array [] true) fs
          · have hstep : Node.step ⟨.array [] :: fs, .value true⟩ t =
                beginValue (.array [] :: fs) t := by
              cases t <;> first | rfl | exact absurd rfl ht
            rw [hstep]
            exact reads_beginValue _ t
  | @key fs ms mayClose hclose =>
      have hgiveUp := reads_of_incomplete (isComplete_giveUp ⟨.object ms none :: fs, .key mayClose⟩)
        (framesTokens fs ++ .openObject :: membersAhead ms.reverse ++ [t])
      cases t with
      | string k => cases mayClose <;> exact Leads.colon
      | closeObject =>
          cases mayClose with
          | false => exact hgiveUp
          | true =>
              obtain rfl := hclose rfl
              rw [List.append_assoc]
              exact reads_settle (.object [] true) fs
      | _ => cases mayClose <;> exact hgiveUp
  | @colon fs ms k =>
      cases t with
      | colon =>
          have h : Leads _ ⟨.object ms k :: fs, .value false⟩ := .value (by simp)
          exact h.congr (by simp [framesTokens_cons, Frame.tokens])
      | _ => exact reads_of_incomplete (isComplete_giveUp ⟨.object ms k :: fs, .colon⟩) _
  | @item fs items n =>
      cases t with
      | comma =>
          have h : Leads _ ⟨.array (n :: items) :: fs, .value false⟩ := .value (by simp)
          exact h.congr (by simp [framesTokens_cons, Frame.tokens, itemsAhead_concat])
      | closeArray =>
          have h := reads_settle (.array (n :: items).reverse true) fs
          rw [List.reverse_cons, tokens_array_concat, ← List.reverse_cons] at h
          rwa [← List.append_assoc, ← List.append_assoc] at h
      | _ => exact reads_of_incomplete (isComplete_giveUp ⟨.array (n :: items) :: fs, .next⟩) _
  | @member fs ms k n =>
      cases t with
      | comma =>
          have h : Leads _ ⟨.object ((k, n) :: ms) none :: fs, .key false⟩ := .key (by simp)
          exact h.congr (by simp [membersAhead_concat])
      | closeObject =>
          have h := reads_settle (.object ((k, n) :: ms).reverse true) fs
          rw [List.reverse_cons, tokens_object_concat, ← List.reverse_cons] at h
          rwa [← List.append_assoc, ← List.append_assoc] at h
      | _ =>
          exact reads_of_incomplete (isComplete_giveUp ⟨.object ((k, n) :: ms) none :: fs, .next⟩) _

/-- **A complete tree has been built from its tokens**, and the others are left. -/
theorem Leads.eq_of_build (h : Leads ts x) (hbuild : build x us = (n, rest))
    (hcomplete : n.isComplete = true) : ts ++ us = n.tokens ++ rest := by
  induction us generalizing ts x with
  | nil =>
      obtain ⟨rfl, -⟩ := Prod.mk.inj hbuild
      rw [isComplete_giveUp] at hcomplete
      cases hcomplete
  | cons t us ih =>
      have hstep := h.step t
      rw [build_cons] at hbuild
      rcases hnext : Node.step x t with y | m
      · rw [hnext] at hstep hbuild
        rw [List.append_cons]
        exact ih hstep hbuild
      · rw [hnext] at hstep hbuild
        obtain ⟨rfl, rfl⟩ := Prod.mk.inj hbuild
        rw [List.append_cons, hstep hcomplete]

theorem eq_of_ofTokens (h : ofTokens ts = (n, rest)) (hcomplete : n.isComplete = true) :
    ts = n.tokens ++ rest := by
  have hstart : Leads (framesTokens []) ⟨[], .value false⟩ := .value (by simp)
  exact hstart.eq_of_build h hcomplete

end QueryPrep.Json.Node
