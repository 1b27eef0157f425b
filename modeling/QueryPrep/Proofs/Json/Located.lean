import QueryPrep.Proofs.Json.Gap
import QueryPrep.Proofs.Json.Integer

/-!
# Where the numbers of a document stand

A container is read from its front, and each number that it holds in the end was met where the
container was waiting for a value (`Node.Met`). One more token adds at most one value to what the
outermost container holds (`Node.Adds`), so the places of the numbers are known for the whole run.
The tokens up to such a place end in a mark of punctuation, and so they are what some part of the
text is cut into (`Token.exists_append_of_lex`).

Main result: around every integer in a field of a document the text has a gap
(`Document.exists_hasGap`).
-/

namespace QueryPrep.Json

open Text (Marks)

/-! ### Parts of a text -/

namespace Token

variable {t : Token} {ts us : List Token} {m : Option Char} {s rest : Marks} {x : Numeral}

/-- A numeral ends where a text begins whose first token is a mark. -/
theorem ends_of_lex (h : lex s = t :: ts) (ht : t.isMark = true) : Numeral.Ends s := by
  rcases hs : s.dropWhile isSpace with - | ⟨m, rest⟩
  · rw [lex_of_blank hs] at h
    cases h
  · rw [lex_of_dropWhile hs] at h
    obtain ⟨hcut, -⟩ := List.cons.inj h
    rcases hrest : cut m rest with ⟨u, behind⟩
    rw [hrest] at hcut
    obtain rfl : u = t := hcut
    have hbad : u ≠ bad := by
      rintro rfl
      cases ht
    have hstring : ∀ c, u ≠ string c := by
      rintro c rfl
      cases ht
    obtain ⟨cs, hcs, hfront⟩ := isTokenText_of_cut hrest hbad hstring
    obtain ⟨blanks, hblanks, hall⟩ := exists_blanks s
    rw [hall, hs, hfront]
    exact ends_blank_append hblanks (ends_of_isMark hcs ht behind)

/-- A token is cut from marks of its own, whatever follows them; a numeral must not go on there. -/
theorem exists_of_cut (h : cut m s = (t, rest)) (ht : t ≠ bad) : ∃ ms, s = ms ++ rest ∧
    ∀ more, (t.isMark = false → Numeral.Ends more) → cut m (ms ++ more) = (t, more) := by
  by_cases hstring : ∃ c, t = string c
  · obtain ⟨c, rfl⟩ := hstring
    obtain ⟨hbad, -⟩ | ⟨cs, hcs, -⟩ | ⟨content, heq, rfl, hquoted⟩ | ⟨x, heq, -⟩ := cut_cases h
    · exact absurd hbad ht
    · simp [fixed] at hcs
    · cases heq
      obtain ⟨ms, rfl, hms⟩ := exists_of_quoted hquoted
      exact ⟨ms, rfl, fun more _ => by simp [cut, hms]⟩
    · cases heq
  · obtain ⟨cs, hcs, hs⟩ := isTokenText_of_cut h ht fun c hc => hstring ⟨c, hc⟩
    have hnothing : Numeral.Ends [] := fun m hm => by cases hm
    obtain ⟨c, cs, rfl, -⟩ := cut_append hcs fun _ => hnothing
    obtain ⟨rfl, rfl⟩ := List.cons.inj hs
    refine ⟨cs.map some, rfl, fun more hmore => ?_⟩
    obtain ⟨c', cs', heq, -, hcut⟩ := cut_append hcs hmore
    obtain ⟨rfl, rfl⟩ := List.cons.inj heq
    exact hcut

/-- **Tokens up to a mark of punctuation are those of a part of the text.** -/
theorem exists_append_of_lex (h : lex s = ts ++ us) (hbad : bad ∉ ts) (hts : Separated ts)
    (hlast : ∀ t ∈ ts.getLast?, t.isMark = true) :
    ∃ front behind, s = front ++ behind ∧ lex front = ts ∧ lex behind = us := by
  induction s using token_induction generalizing ts with
  | blank s hs =>
      rw [lex_of_blank hs] at h
      obtain ⟨rfl, rfl⟩ := List.append_eq_nil_iff.mp h.symm
      exact ⟨[], s, rfl, rfl, lex_of_blank hs⟩
  | token s m rest hs ih =>
      cases ts with
      | nil => exact ⟨[], s, rfl, rfl, h⟩
      | cons t ts =>
          rw [lex_of_dropWhile hs] at h
          rcases hcut : cut m rest with ⟨u, left⟩
          rw [hcut] at h ih
          obtain ⟨rfl, hleft⟩ := List.cons.inj h
          obtain ⟨hpair, hlater⟩ := List.isChain_cons.mp hts
          simp only [List.mem_cons, not_or] at hbad
          have hlast' : ∀ t ∈ ts.getLast?, t.isMark = true := by
            intro t ht
            refine hlast t ?_
            rw [List.getLast?_cons, Option.mem_def.mp ht]
            rfl
          obtain ⟨front, behind, rfl, hfront, hbehind⟩ := ih hleft hbad.2 hlater hlast'
          obtain ⟨ms, rfl, hms⟩ := exists_of_cut hcut (Ne.symm hbad.1)
          -- a token that is no mark has one behind it, which keeps a numeral from going on
          have hends : u.isMark = false → Numeral.Ends front := by
            intro hmark
            rcases ts with - | ⟨t, ts⟩
            · exact absurd (hlast u rfl) (by simp [hmark])
            · exact ends_of_lex hfront (by simpa [hmark] using hpair t rfl)
          obtain ⟨blanks, hblanks, hall⟩ := exists_blanks s
          rw [hs] at hall
          refine ⟨blanks.map some ++ m :: (ms ++ front), behind, by simp [hall], ?_, hbehind⟩
          have hspace : isSpace m = false := by
            have hhead := List.head?_dropWhile_not isSpace s
            rw [hs] at hhead
            simpa using hhead
          rw [lex_blank_append hblanks.isSpace, lex_of_dropWhile (List.dropWhile_cons_of_neg
            (by simp [hspace])), hms front hends, hfront]

/-- A numeral in front of a mark of punctuation has a part of the text for itself. -/
theorem exists_isText_of_lex (h : lex s = ts ++ number x :: t :: us) (hbad : bad ∉ ts)
    (hts : Separated ts) (hlast : ∀ t ∈ ts.getLast?, t.isMark = true) (ht : t.isMark = true) :
    ∃ front cs behind, s = front ++ cs.map some ++ behind ∧ lex front = ts ∧ x.IsText cs ∧
      Numeral.Ends behind := by
  obtain ⟨front, left, rfl, hfront, hleft⟩ := exists_append_of_lex h hbad hts hlast
  rcases hdrop : left.dropWhile isSpace with - | ⟨m, rest⟩
  · rw [lex_of_blank hdrop] at hleft
    cases hleft
  · rw [lex_of_dropWhile hdrop] at hleft
    rcases hcut : cut m rest with ⟨u, behind⟩
    rw [hcut] at hleft
    obtain ⟨rfl, hbehind⟩ := List.cons.inj hleft
    obtain ⟨cs, hcs, hnumber⟩ := isTokenText_of_cut hcut (by simp) (by simp)
    obtain ⟨blanks, hblanks, hall⟩ := exists_blanks left
    refine ⟨front ++ blanks.map some, cs, behind, ?_, ?_, isTokenText_number_iff.mp hcs,
      ends_of_lex hbehind ht⟩
    · rw [hall, hdrop, hnumber]
      simp
    · have hblank : lex (blanks.map some) = [] :=
        lex_of_blank (List.dropWhile_eq_nil_iff.mpr hblanks.isSpace)
      rw [lex_append (hfront ▸ hbad) (hfront ▸ hlast), hblank, List.append_nil, hfront]

end Token

/-! ### Numbers in the outermost container -/

namespace Node

variable {κ : Kind} {held before behind : List κ.Held} {x : Context} {t : Token} {n : Node}
  {ts us rest : List Token} {fs : List Frame} {k : Option String} {p : Place} {b : Bool}
  {y : Numeral}

/-- What a token does to what the outermost container holds: it adds nothing, a number or some other
value, or it is the end of the container, or of all that makes sense. -/
inductive Adds (κ : Kind) (held : List κ.Held) (x : Context) (t : Token) :
    Context ⊕ Node → Prop where
  | nothing (fs : List Frame) (k : Option String) (p : Place) :
      Adds κ held x t (.inl ⟨fs ++ [κ.frame held k], p⟩)
  | number {k : Option String} {b : Bool} {y : Numeral} (hx : x = ⟨[κ.frame held k], .value b⟩)
      (ht : t = .number y) :
      Adds κ held x t (.inl ⟨[κ.frame (κ.hold k (.number y) :: held) none], .next⟩)
  | other (k : Option String) {n : Node} (hn : ∀ y, n ≠ .number y) :
      Adds κ held x t (.inl ⟨[κ.frame (κ.hold k n :: held) none], .next⟩)
  | closed : Adds κ held x t (.inr (κ.node held.reverse true))
  | broken {n : Node} (h : n.isComplete = false) : Adds κ held x t (.inr n)

theorem adds_settle (hn : ∀ y, n ≠ .number y) (fs : List Frame) (k : Option String) :
    Adds κ held x t (settle n (fs ++ [κ.frame held k])) := by
  rcases fs with - | ⟨_ | _, fs⟩
  · cases κ
    · exact .other none hn
    · exact .other k hn
  · exact .nothing (_ :: fs) k .next
  · exact .nothing (_ :: fs) k .next

theorem adds_beginValue (fs : List Frame) (k : Option String) (b : Bool) (t : Token) :
    Adds κ held ⟨fs ++ [κ.frame held k], .value b⟩ t
      (beginValue (fs ++ [κ.frame held k]) t) := by
  cases t with
  | openArray => exact .nothing (.array [] :: fs) k (.value true)
  | openObject => exact .nothing (.object [] none :: fs) k (.key true)
  | number y =>
      rcases fs with - | ⟨_ | _, fs⟩
      · cases κ <;> exact .number rfl rfl
      · exact .nothing (_ :: fs) k .next
      · exact .nothing (_ :: fs) k .next
  | null | bool | string => exact adds_settle (by simp) fs k
  | closeArray | closeObject | comma | colon | bad => exact .broken (isComplete_cutOff rfl _)

theorem adds_step (fs : List Frame) (k : Option String) (p : Place) (t : Token) :
    Adds κ held ⟨fs ++ [κ.frame held k], p⟩ t (step ⟨fs ++ [κ.frame held k], p⟩ t) := by
  have hvalue := fun b => @adds_beginValue κ held fs k b t
  have hgiveUp : Adds κ held ⟨fs ++ [κ.frame held k], p⟩ t
      (.inr (Context.giveUp ⟨fs ++ [κ.frame held k], p⟩)) :=
    .broken (isComplete_giveUp _)
  cases fs with
  | nil =>
      -- the outermost container is the innermost one as well
      have hmove : ∀ k' p', Adds κ held ⟨[κ.frame held k], p⟩ t (.inl ⟨[κ.frame held k'], p'⟩) :=
        .nothing []
      cases κ <;> rcases p with (_ | _) | (_ | _) | - | - <;> cases t <;>
        first | exact hvalue _ | exact .closed | exact hmove _ _ | exact hmove k _ | exact hgiveUp
  | cons f fs =>
      have hmove : ∀ f' p', Adds κ held ⟨f :: (fs ++ [κ.frame held k]), p⟩ t
          (.inl ⟨f' :: (fs ++ [κ.frame held k]), p'⟩) := fun f' => .nothing (f' :: fs) k
      cases f <;> rcases p with (_ | _) | (_ | _) | - | - <;> cases t <;>
        first
        | exact hvalue _
        | exact adds_settle (by simp) fs k
        | exact hmove _ _
        | exact hgiveUp

/-- Each number that the outermost container holds was met in its place: there the container held
what lies in front of the number. -/
def Met (κ : Kind) (ts : List Token) (held : List κ.Held) : Prop :=
  ∀ after k y before, held = after ++ κ.hold k (.number y) :: before → ∃ front behind b,
    ts = front ++ .number y :: behind ∧
      follow ⟨[], .value false⟩ front = some ⟨[κ.frame before k], .value b⟩

theorem Met.append (h : Met κ ts held) (us : List Token) : Met κ (ts ++ us) held := by
  intro after k y before heq
  obtain ⟨front, behind, b, rfl, hfollow⟩ := h after k y before heq
  exact ⟨front, behind ++ us, b, by simp, hfollow⟩

theorem Kind.hold_inj {k k' : Option String} {n n' : Node} (h : κ.hold k n = κ.hold k' n') :
    n = n' := by
  cases κ
  · exact h
  · exact (Prod.mk.inj h).2

theorem Met.cons_other (h : Met κ ts held) (hn : ∀ y, n ≠ .number y) (k : Option String) :
    Met κ ts (κ.hold k n :: held) := by
  intro after k' y before heq
  cases after with
  | nil => exact absurd (Kind.hold_inj (List.cons.inj heq).1) (hn y)
  | cons a after => exact h after k' y before (List.cons.inj heq).2

theorem Kind.frame_congr {k k' : Option String} {n n' : Node} (h : κ.hold k n = κ.hold k' n')
    (held : List κ.Held) : κ.frame held k = κ.frame held k' := by
  cases κ
  · rfl
  · rw [(Prod.mk.inj h).1]

theorem Met.cons_number (h : Met κ ts held)
    (hfollow : follow ⟨[], .value false⟩ ts = some ⟨[κ.frame held k], .value b⟩) (y : Numeral) :
    Met κ (ts ++ [.number y]) (κ.hold k (.number y) :: held) := by
  intro after k' z before heq
  cases after with
  | nil =>
      obtain ⟨hhold, rfl⟩ := List.cons.inj heq
      obtain rfl := Node.number.inj (Kind.hold_inj hhold)
      exact ⟨ts, [], b, rfl, Kind.frame_congr hhold held ▸ hfollow⟩
  | cons a after => exact h.append _ after k' z before (List.cons.inj heq).2

/-- **The numbers of a container were met in their places**, and behind them came the end of the
container. -/
theorem Met.exists_of_build (h : Met κ ts held)
    (hfollow : follow ⟨[], .value false⟩ ts = some ⟨fs ++ [κ.frame held k], p⟩)
    (hbuild : build ⟨fs ++ [κ.frame held k], p⟩ us = (n, rest)) (hcomplete : n.isComplete = true) :
    ∃ front t held', us = front ++ t :: rest ∧ n = κ.node held'.reverse true ∧
      Met κ (ts ++ front) held' := by
  -- by what is left of the tokens; what is held so far has been met in those that are read
  induction us generalizing ts held fs k p with
  | nil =>
      obtain ⟨rfl, -⟩ := Prod.mk.inj hbuild
      rw [isComplete_giveUp] at hcomplete
      cases hcomplete
  | cons t us ih =>
      have hadds := @adds_step κ held fs k p t
      rw [build_cons] at hbuild
      have hnext : ∀ y, step ⟨fs ++ [κ.frame held k], p⟩ t = .inl y →
          follow ⟨[], .value false⟩ (ts ++ [t]) = some y := fun y hy =>
        follow_concat_eq_some_iff.mpr ⟨_, hfollow, hy⟩
      -- what is known of the later tokens is known of all of them
      have hlater : ∀ {gs k' q} {held' : List κ.Held},
          step ⟨fs ++ [κ.frame held k], p⟩ t = .inl ⟨gs ++ [κ.frame held' k'], q⟩ →
          Met κ (ts ++ [t]) held' → ∃ front u held'', t :: us = front ++ u :: rest ∧
            n = κ.node held''.reverse true ∧ Met κ (ts ++ front) held'' := by
        intro gs k' q held' hstep hmet
        rw [hstep] at hbuild
        obtain ⟨front, u, held'', rfl, hn, hmet'⟩ := ih hmet (hnext _ hstep) hbuild
        exact ⟨t :: front, u, held'', rfl, hn, by rwa [List.append_assoc] at hmet'⟩
      generalize hstep : step ⟨fs ++ [κ.frame held k], p⟩ t = r at hadds
      cases hadds with
      | nothing gs k' q => exact hlater hstep (h.append [t])
      | @number k' b y hx ht =>
          subst ht
          rw [hx] at hfollow
          exact @hlater [] none .next _ hstep (h.cons_number hfollow y)
      | other k' hn => exact @hlater [] none .next _ hstep ((h.append [t]).cons_other hn k')
      | closed =>
          rw [hstep] at hbuild
          obtain ⟨rfl, rfl⟩ := Prod.mk.inj hbuild
          exact ⟨[], t, held, rfl, rfl, by rwa [List.append_nil]⟩
      | broken hbroken =>
          rw [hstep] at hbuild
          obtain ⟨rfl, -⟩ := Prod.mk.inj hbuild
          rw [hbroken] at hcomplete
          cases hcomplete

theorem Leads.append_follow (h : Leads us x) {z : Context} (hfollow : follow x ts = some z) :
    Leads (us ++ ts) z := by
  induction ts generalizing us x with
  | nil =>
      obtain rfl := Option.some.inj hfollow
      rwa [List.append_nil]
  | cons t ts ih =>
      obtain ⟨y, hstep, hts⟩ := follow_cons_eq_some_iff.mp hfollow
      have hread := h.step t
      rw [hstep] at hread
      have hall := ih hread hts
      rwa [List.append_assoc] at hall

/-- Only in an array that has just been opened a bracket may stand instead of a value. -/
theorem Leads.exists_eq_array_nil_cons (h : Leads ts ⟨fs, .value true⟩) :
    ∃ gs, fs = .array [] :: gs := by
  cases h with
  | value hopen => exact hopen rfl

/-- The token with which a container begins. -/
def Kind.opening : Kind → Token
  | array => .openArray
  | object => .openObject

theorem Kind.exists_tokens_node (κ : Kind) (items : List κ.Held) (closed : Bool) :
    ∃ ts, (κ.node items closed).tokens = κ.opening :: ts := by
  cases κ <;> rcases items with - | ⟨⟨_, _⟩ | _, items⟩ <;> exact ⟨_, rfl⟩

theorem Kind.step_opening (κ : Kind) :
    ∃ p, step ⟨[], .value false⟩ κ.opening = .inl ⟨[κ.frame [] none], p⟩ := by
  cases κ <;> exact ⟨_, rfl⟩

theorem Kind.isComplete_node (κ : Kind) (items : List κ.Held) (closed : Bool) :
    (κ.node items closed).isComplete = closed := by
  cases κ <;> rfl

theorem Kind.node_inj {items items' : List κ.Held} {closed closed' : Bool}
    (h : κ.node items closed = κ.node items' closed') : items = items' ∧ closed = closed' := by
  cases κ <;> cases h <;> exact ⟨rfl, rfl⟩

/-- All but the last one of the tokens of a container lead to all that it holds. -/
theorem exists_met_of_ofTokens {items : List κ.Held}
    (h : ofTokens ts = (κ.node items true, rest)) : ∃ front close,
      (κ.node items true).tokens = front ++ [close] ∧ ts = front ++ [close] ++ rest ∧
      Met κ front items.reverse := by
  have hcomplete := κ.isComplete_node items true
  have htokens := eq_of_ofTokens h hcomplete
  obtain ⟨us, hus⟩ := κ.exists_tokens_node items true
  obtain ⟨p, hstep⟩ := κ.step_opening
  rw [hus, List.cons_append] at htokens
  rw [htokens, ofTokens, build_cons, hstep] at h
  -- behind the opening bracket nothing has been met yet
  have hmet : Met κ [κ.opening] [] := by
    intro after k y before heq
    exact absurd heq.symm (List.append_ne_nil_of_right_ne_nil _ (List.cons_ne_nil _ _))
  have hfollow : follow ⟨[], .value false⟩ [κ.opening] = some ⟨[κ.frame [] none], p⟩ := by
    simp [follow, hstep]
  obtain ⟨front, close, held, hfront, hheld, hmet⟩ :=
    @Met.exists_of_build κ [] _ [κ.opening] _ rest [] none p hmet hfollow h hcomplete
  obtain ⟨rfl, -⟩ := Kind.node_inj hheld
  obtain rfl : us = front ++ [close] := by
    have hcancel : us ++ rest = (front ++ [close]) ++ rest := by simpa using hfront
    exact List.append_cancel_right hcancel
  refine ⟨κ.opening :: front, close, hus, htokens, ?_⟩
  rwa [List.reverse_reverse]

/-- **A number in the outermost container was met where this container waited for it.** -/
theorem exists_follow_of_ofTokens
    (h : ofTokens ts = (κ.node (before ++ κ.hold k (.number y) :: behind) true, rest)) :
    ∃ front t us b, ts = front ++ .number y :: t :: us ∧
      Token.Separated (front ++ [.number y, t]) ∧
      follow ⟨[], .value false⟩ front = some ⟨[κ.frame before.reverse k], .value b⟩ := by
  obtain ⟨all, close, htokens, rfl, hmet⟩ := exists_met_of_ofTokens h
  have hreverse : (before ++ κ.hold k (.number y) :: behind).reverse =
      behind.reverse ++ κ.hold k (.number y) :: before.reverse := by
    simp
  obtain ⟨front, left, b, rfl, hfollow⟩ := hmet _ k y _ hreverse
  obtain ⟨t, us, hleft⟩ : ∃ t us, left ++ [close] = t :: us := by
    cases left <;> exact ⟨_, _, rfl⟩
  have hall : front ++ .number y :: left ++ [close] = front ++ [.number y, t] ++ us := by
    simp [hleft]
  refine ⟨front, t, us ++ rest, b, ?_, ?_, hfollow⟩
  · rw [hall]
    simp
  · have hseparated := separated_tokens (κ.node (before ++ κ.hold k (.number y) :: behind) true)
    rw [htokens, hall] at hseparated
    exact (List.isChain_append.mp hseparated).1

end Node

/-! ### Gaps -/

namespace Document

variable {name : String} {i : Nat} {put : Node → Node} {n : Int} {s : Marks} {v : Value}

/-- A number in the outermost container has a part of the text for itself, and with the text of
another value in its place the document holds this value instead. -/
theorem exists_front_of_root {κ : Node.Kind} {before behind : List κ.Held} {k : Option String}
    {y : Numeral}
    (hroot : (ofMarks s).root = κ.node (before ++ κ.hold k (.number y) :: behind) true)
    (hy : (Node.number y).meaning? = some v) : ∃ front cs rest b,
      s = front ++ cs.map some ++ rest ∧ y.IsText cs ∧ Numeral.Ends rest ∧
      Node.follow ⟨[], .value false⟩ (Token.lex front) =
        some ⟨[κ.frame before.reverse k], .value b⟩ ∧
      ∀ (w : Value) (ds : List Char), w.IsText ds →
        Holds (fun m => κ.node (before ++ κ.hold k m :: behind) true)
          (front ++ ds.map some ++ rest) w := by
  rcases hbuilt : Node.ofTokens (Token.lex s) with ⟨root, left⟩
  have hsame : (ofMarks s).root = root := by rw [ofMarks, hbuilt]
  rw [← hsame, hroot] at hbuilt
  obtain ⟨tokens, t, us, b, hlex, hseparated, hfollow⟩ := Node.exists_follow_of_ofTokens hbuilt
  obtain ⟨hfront, hnumber, -⟩ := List.isChain_append.mp hseparated
  have hmark : t.isMark = true := by simpa [Token.isMark] using hnumber
  obtain ⟨front, cs, rest, rfl, rfl, hcs, hends⟩ := Token.exists_isText_of_lex hlex
    (Node.bad_not_mem hfollow) hfront (Node.isMark_of_follow hfollow) hmark
  -- the number is itself one of the values that may stand there, so what lies around it is known
  obtain ⟨more, closed, hfill⟩ := exists_holds hfollow hends
  obtain ⟨m, -, hm⟩ := hfill v cs ⟨_, hy, (Token.IsTokenText.number hcs).isText⟩
  obtain ⟨hitems, rfl⟩ := Node.Kind.node_inj (hroot.symm.trans hm)
  rw [List.reverse_reverse] at hitems hfill
  obtain ⟨-, rfl⟩ := List.cons.inj (List.append_cancel_left hitems)
  exact ⟨front, cs, rest, b, rfl, hcs, hends, hfollow, hfill⟩

/-- **Around every integer in a field the text has a gap**, and with another value in the gap the
document holds this value instead of the integer. -/
theorem exists_hasGap (hput : Node.Gap name i put) (hholds : Holds put s (.int n))
    (hcomplete : (ofMarks s).root.isComplete = true) :
    ∃ front cs behind, s = front ++ cs.map some ++ behind ∧ Numeral.IsLiteral n cs ∧
      HasGap name i front behind ∧ ∀ (v : Value) (ds : List Char), v.IsText ds →
        Holds put (front ++ ds.map some ++ behind) v := by
  obtain ⟨m, hm, hroot⟩ := hholds
  obtain ⟨y, rfl, hy⟩ := Node.meaning?_eq_int_iff.mp hm
  rw [hroot] at hcomplete
  -- a field of an object is found by its name, a field of an array by what stands in front of it
  cases hput with
  | member before behind closed =>
      obtain rfl : closed = true := hcomplete
      obtain ⟨front, cs, rest, b, hs, hcs, hends, hfollow, hfill⟩ :=
        @exists_front_of_root s _ .object before behind (some name) y hroot hm
      obtain rfl : b = false := by
        cases b with
        | false => rfl
        | true =>
            have hstart : Node.Leads (Node.framesTokens []) ⟨[], .value false⟩ := .value (by simp)
            obtain ⟨gs, hgs⟩ := (hstart.append_follow hfollow).exists_eq_array_nil_cons
            cases hgs
      exact ⟨front, cs, rest, hs, Numeral.isLiteral_of_number? hcs hy,
        ⟨⟨_, hfollow, .member _⟩, hends⟩, hfill⟩
  | @item before hlength behind closed =>
      obtain rfl : closed = true := hcomplete
      obtain ⟨front, cs, rest, b, hs, hcs, hends, hfollow, hfill⟩ :=
        @exists_front_of_root s _ .array before behind none y hroot hm
      exact ⟨front, cs, rest, hs, Numeral.isLiteral_of_number? hcs hy,
        ⟨⟨_, hfollow, .item (List.length_reverse.trans hlength) b⟩, hends⟩, hfill⟩

end Document

end QueryPrep.Json
