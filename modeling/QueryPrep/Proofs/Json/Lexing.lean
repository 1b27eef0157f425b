import QueryPrep.Proofs.Json.Token

/-!
# What tokens are cut from

A text is cut from its front, so what has been cut off is known: a numeral was one of the spellings
of this numeral, and so was any other token, strings apart, whose content may be lost
(`Numeral.isText_of_scan`, `Token.isTokenText_of_cut`). More text at the end changes nothing about a
token unless nothing was left behind it.

Main results: a text that is cut into sound tokens other than strings is a text of these tokens
(`Token.isText_of_lex`); what follows a mark of punctuation is cut by itself (`Token.lex_append`),
and what follows a text of tokens is cut by itself as well (`Token.lex_append_of_isText`).
-/

namespace QueryPrep.Json

open Text (Marks)

namespace Numeral

variable {x : Numeral} {s rest : Marks}

/-! ### Numerals -/

/-- Marks that are characters. -/
theorem exists_eq_map_some (h : ∀ m ∈ s, m.any Char.isDigit = true) :
    s = (s.filterMap id).map some ∧ ∀ c ∈ s.filterMap id, c.isDigit = true := by
  induction s with
  | nil => exact ⟨rfl, List.forall_mem_nil _⟩
  | cons m s ih =>
      obtain ⟨hm, hs⟩ := List.forall_mem_cons.mp h
      obtain ⟨heq, hdigits⟩ := ih hs
      rcases m with - | c
      · cases hm
      · exact ⟨congrArg (some c :: ·) heq, List.forall_mem_cons.mpr ⟨hm, hdigits⟩⟩

/-- What digits were taken from. -/
theorem digits_spec {ds : List Char} (h : digits s = (ds, rest)) :
    s = ds.map some ++ rest ∧ (∀ c ∈ ds, c.isDigit = true) ∧
      ∀ m ∈ rest.head?, m.any Char.isDigit = false := by
  obtain ⟨rfl, rfl⟩ := Prod.mk.inj h
  obtain ⟨heq, hdigits⟩ := exists_eq_map_some fun m hm => List.mem_takeWhile_imp hm
  refine ⟨?_, hdigits, fun m hm => ?_⟩
  · rw [← heq, List.takeWhile_append_dropWhile]
  · have hhead := List.head?_dropWhile_not (·.any Char.isDigit) s
    rwa [Option.mem_def.mp hm] at hhead

theorem digits_append_of_ne_nil {ds : List Char} (h : digits s = (ds, rest)) (hrest : rest ≠ [])
    (more : Marks) : digits (s ++ more) = (ds, rest ++ more) := by
  obtain ⟨rfl, hds, hhead⟩ := digits_spec h
  rw [List.append_assoc]
  refine digits_append hds fun m hm => hhead m ?_
  rwa [List.head?_append_of_ne_nil _ hrest] at hm

/-- What a fraction was scanned from. -/
theorem scanFraction_spec {fraction : Option (List Char)}
    (h : scanFraction s = some (fraction, rest)) :
    s = (fraction.elim [] ('.' :: ·)).map some ++ rest ∧ ∀ ds ∈ fraction, IsDigits ds := by
  unfold scanFraction at h
  split at h
  · rename_i s
    rcases hds : digits s with ⟨ds, rest'⟩
    simp only [hds] at h
    split_ifs at h with hempty
    obtain ⟨rfl, rfl⟩ := Prod.mk.inj (Option.some.inj h)
    have hne : ds ≠ [] := by simpa using hempty
    obtain ⟨rfl, hdigits, -⟩ := digits_spec hds
    refine ⟨rfl, ?_⟩
    rintro _ ⟨⟩
    exact ⟨hne, hdigits⟩
  · obtain ⟨rfl, rfl⟩ := Prod.mk.inj (Option.some.inj h)
    refine ⟨rfl, ?_⟩
    rintro _ ⟨⟩

/-- A letter with a sign and digits behind it is an exponent. -/
theorem exists_isExponentText {e : Char} (he : e = 'e' ∨ e = 'E') {ds : List Char}
    (h : (scanSign s).2 = ds.map some ++ rest) : ∃ cs,
      IsExponentText (some ((scanSign s).1, ds)) cs ∧ some e :: s = cs.map some ++ rest := by
  unfold scanSign at h ⊢
  split at h <;> (simp only at h; subst h)
  · exact ⟨_, .negative he ds, rfl⟩
  · exact ⟨_, .positive he ds, rfl⟩
  · exact ⟨_, .unsigned he ds, rfl⟩

/-- What an exponent was scanned from. -/
theorem scanExponent_spec {exponent : Option (Bool × List Char)}
    (h : scanExponent s = some (exponent, rest)) : ∃ cs, IsExponentText exponent cs ∧
      s = cs.map some ++ rest ∧ ∀ e ∈ exponent, IsDigits e.2 := by
  have hletter : ∀ e : Char, (e = 'e' ∨ e = 'E') → ∀ s : Marks,
      (if (digits (scanSign s).2).1.isEmpty then none
        else some (some ((scanSign s).1, (digits (scanSign s).2).1), (digits (scanSign s).2).2)) =
          some (exponent, rest) →
      ∃ cs, IsExponentText exponent cs ∧ some e :: s = cs.map some ++ rest ∧
        ∀ e ∈ exponent, IsDigits e.2 := by
    intro e he s h
    rcases hds : digits (scanSign s).2 with ⟨ds, rest'⟩
    rw [hds] at h
    split_ifs at h with hempty
    obtain ⟨rfl, rfl⟩ := Prod.mk.inj (Option.some.inj h)
    obtain ⟨heq, hdigits, -⟩ := digits_spec hds
    obtain ⟨cs, htext, hcs⟩ := exists_isExponentText he heq
    refine ⟨cs, htext, hcs, ?_⟩
    rintro _ ⟨⟩
    exact ⟨by simpa using hempty, hdigits⟩
  unfold scanExponent at h
  split at h
  · exact hletter 'e' (.inl rfl) _ h
  · exact hletter 'E' (.inr rfl) _ h
  · obtain ⟨rfl, rfl⟩ := Prod.mk.inj (Option.some.inj h)
    refine ⟨[], .none, rfl, ?_⟩
    rintro _ ⟨⟩

/-- What a numeral behind its sign was scanned from. -/
theorem scanUnsigned_spec {negative : Bool} (h : scanUnsigned negative s = some (x, rest)) :
    x.negative = negative ∧ x.IsWellFormed ∧ ∃ exponent, IsExponentText x.exponent exponent ∧
      s = (x.whole ++ x.fractionText ++ exponent).map some ++ rest := by
  unfold scanUnsigned at h
  rcases hwhole : digits s with ⟨whole, s₁⟩
  simp only [hwhole] at h
  split_ifs at h with hbad
  · cases h
  obtain ⟨-, -, h⟩ := Option.bind_eq_some_iff.mp h
  obtain ⟨⟨fraction, s₂⟩, hpoint, h⟩ := Option.bind_eq_some_iff.mp h
  obtain ⟨⟨exponent, s₃⟩, hletter, h⟩ := Option.bind_eq_some_iff.mp h
  obtain ⟨rfl, rfl⟩ := Prod.mk.inj (Option.some.inj h)
  obtain ⟨rfl, hdigits, -⟩ := digits_spec hwhole
  obtain ⟨rfl, hfraction⟩ := scanFraction_spec hpoint
  obtain ⟨cs, htext, rfl, hexponent⟩ := scanExponent_spec hletter
  simp only [Bool.or_eq_true, List.isEmpty_iff, Bool.and_eq_true, beq_iff_eq, bne_iff_ne, not_or,
    not_and, not_not] at hbad
  refine ⟨rfl, ⟨⟨hbad.1, hdigits⟩, fun hzero => ?_, hfraction, hexponent⟩, cs, htext, ?_⟩
  · obtain ⟨c, hc⟩ := List.length_eq_one_iff.mp (hbad.2 hzero)
    rw [hc] at hzero ⊢
    rw [Option.some.inj hzero]
  · simp [fractionText]

/-- **A numeral was scanned from one of its spellings.** -/
theorem isText_of_scan (h : scan s = some (x, rest)) :
    ∃ cs, x.IsText cs ∧ s = cs.map some ++ rest := by
  by_cases hsign : s.head? = some (some '-')
  · obtain ⟨s, rfl⟩ : ∃ s', s = some '-' :: s' := by
      cases s with
      | nil => cases hsign
      | cons m s => exact ⟨s, congrArg (· :: s) (Option.some.inj hsign)⟩
    rw [scan_minus] at h
    obtain ⟨hnegative, hx, exponent, htext, rfl⟩ := scanUnsigned_spec h
    exact ⟨_, ⟨hx, exponent, htext, rfl⟩, by simp [hnegative]⟩
  · rw [scan_of_head_ne hsign] at h
    obtain ⟨hnegative, hx, exponent, htext, rfl⟩ := scanUnsigned_spec h
    exact ⟨_, ⟨hx, exponent, htext, rfl⟩, by simp [hnegative]⟩

/-! ### Numerals in front of more -/

theorem scanFraction_append_of_ne_nil {fraction : Option (List Char)}
    (h : scanFraction s = some (fraction, rest)) (hrest : rest ≠ []) (more : Marks) :
    scanFraction (s ++ more) = some (fraction, rest ++ more) := by
  unfold scanFraction at h
  split at h
  · rename_i s
    rcases hds : digits s with ⟨ds, rest'⟩
    simp only [hds] at h
    split_ifs at h with hempty
    obtain ⟨rfl, rfl⟩ := Prod.mk.inj (Option.some.inj h)
    simp only [List.cons_append, scanFraction, digits_append_of_ne_nil hds hrest more,
      if_neg hempty]
  · rename_i hpoint
    obtain ⟨rfl, rfl⟩ := Prod.mk.inj (Option.some.inj h)
    rcases s with - | ⟨m, s⟩
    · exact absurd rfl hrest
    · unfold scanFraction
      split
      · next heq =>
          cases heq
          exact absurd rfl (hpoint s)
      · rfl

theorem scanSign_append (hs : s ≠ []) (more : Marks) :
    scanSign (s ++ more) = ((scanSign s).1, (scanSign s).2 ++ more) := by
  rcases s with - | ⟨m, s⟩
  · exact absurd rfl hs
  · unfold scanSign
    split <;> split <;> simp_all

theorem scanExponent_append_of_ne_nil {exponent : Option (Bool × List Char)}
    (h : scanExponent s = some (exponent, rest)) (hrest : rest ≠ []) (more : Marks) :
    scanExponent (s ++ more) = some (exponent, rest ++ more) := by
  have hletter : ∀ s : Marks,
      (if (digits (scanSign s).2).1.isEmpty then none
        else some (some ((scanSign s).1, (digits (scanSign s).2).1), (digits (scanSign s).2).2)) =
          some (exponent, rest) →
      (if (digits (scanSign (s ++ more)).2).1.isEmpty then none
        else some (some ((scanSign (s ++ more)).1, (digits (scanSign (s ++ more)).2).1),
          (digits (scanSign (s ++ more)).2).2)) = some (exponent, rest ++ more) := by
    intro s h
    rcases hds : digits (scanSign s).2 with ⟨ds, rest'⟩
    rw [hds] at h
    split_ifs at h with hempty
    obtain ⟨rfl, rfl⟩ := Prod.mk.inj (Option.some.inj h)
    have hs : s ≠ [] := by
      rintro rfl
      obtain ⟨-, rfl⟩ := Prod.mk.inj hds
      exact hrest rfl
    simp only [scanSign_append hs more, digits_append_of_ne_nil hds hrest more, if_neg hempty]
  unfold scanExponent at h
  split at h
  · exact hletter _ h
  · exact hletter _ h
  · rename_i hsmall hcapital
    obtain ⟨rfl, rfl⟩ := Prod.mk.inj (Option.some.inj h)
    rcases s with - | ⟨m, s⟩
    · exact absurd rfl hrest
    · unfold scanExponent
      split
      · next heq =>
          cases heq
          exact absurd rfl (hsmall s)
      · next heq =>
          cases heq
          exact absurd rfl (hcapital s)
      · rfl

theorem scanUnsigned_append_of_ne_nil {negative : Bool}
    (h : scanUnsigned negative s = some (x, rest)) (hrest : rest ≠ []) (more : Marks) :
    scanUnsigned negative (s ++ more) = some (x, rest ++ more) := by
  unfold scanUnsigned at h
  rcases hwhole : digits s with ⟨whole, s₁⟩
  simp only [hwhole] at h
  split_ifs at h with hbad
  · cases h
  obtain ⟨-, -, h⟩ := Option.bind_eq_some_iff.mp h
  obtain ⟨⟨fraction, s₂⟩, hpoint, h⟩ := Option.bind_eq_some_iff.mp h
  obtain ⟨⟨exponent, s₃⟩, hletter, h⟩ := Option.bind_eq_some_iff.mp h
  obtain ⟨rfl, rfl⟩ := Prod.mk.inj (Option.some.inj h)
  -- each part leaves something, since the last one does
  have hrest₂ : s₂ ≠ [] := by
    obtain ⟨cs, -, rfl, -⟩ := scanExponent_spec hletter
    exact List.append_ne_nil_of_right_ne_nil _ hrest
  have hrest₁ : s₁ ≠ [] := by
    obtain ⟨rfl, -⟩ := scanFraction_spec hpoint
    exact List.append_ne_nil_of_right_ne_nil _ hrest₂
  unfold scanUnsigned
  simp only [digits_append_of_ne_nil hwhole hrest₁ more, if_neg hbad,
    scanFraction_append_of_ne_nil hpoint hrest₂ more, Option.bind_eq_bind, Option.bind_some,
    scanExponent_append_of_ne_nil hletter hrest more]
  rfl

/-- More text does not change a numeral behind which something was left. -/
theorem scan_append_of_ne_nil (h : scan s = some (x, rest)) (hrest : rest ≠ []) (more : Marks) :
    scan (s ++ more) = some (x, rest ++ more) := by
  by_cases hsign : s.head? = some (some '-')
  · obtain ⟨s, rfl⟩ : ∃ s', s = some '-' :: s' := by
      cases s with
      | nil => cases hsign
      | cons m s => exact ⟨s, congrArg (· :: s) (Option.some.inj hsign)⟩
    exact scanUnsigned_append_of_ne_nil h hrest more
  · have hs : s ≠ [] := by
      obtain ⟨cs, -, rfl⟩ := isText_of_scan h
      exact List.append_ne_nil_of_right_ne_nil _ hrest
    rw [scan_of_head_ne hsign] at h
    rw [scan_of_head_ne (by rwa [List.head?_append_of_ne_nil _ hs])]
    exact scanUnsigned_append_of_ne_nil h hrest more

end Numeral

namespace Token

variable {t : Token} {ts : List Token} {m : Option Char} {s rest : Marks}

/-! ### Tokens -/

theorem quoted_escape {x : Content} {e : Option Char} {c : Char} (h : escaped? e = some c)
    (s : Marks) : quoted x (some '\\' :: e :: s) = quoted (x.push (some c)) s := by
  have hu : e ≠ some 'u' := by
    rintro rfl
    cases h
  rw [quoted]
  · simp [h]
  · exact fun _ _ _ _ _ heq => absurd heq hu

/-- A string is read from marks of its own, whatever follows them. -/
theorem exists_of_quoted {x : Content} {content : Option String}
    (h : quoted x s = some (content, rest)) : ∃ ms, s = ms ++ rest ∧
      ∀ more, quoted x (ms ++ more) = some (content, more) := by
  fun_induction quoted x s with
  | case1 | case4 | case6 | case7 | case8 => simp_all
  | case2 x s =>
      obtain ⟨rfl, rfl⟩ := Prod.mk.inj (Option.some.inj h)
      refine ⟨[some '"'], rfl, fun more => ?_⟩
      rw [List.singleton_append, quoted.eq_def]
      simp
  | case3 x a b c d s u hu hquote ih =>
      obtain ⟨ms, rfl, hms⟩ := ih h
      refine ⟨some '\\' :: some 'u' :: a :: b :: c :: d :: ms, rfl, fun more => ?_⟩
      rw [← hms more]
      simp only [List.cons_append]
      rw [quoted]
      simp [hu]
  | case5 x e s hnot c hc hquote ih =>
      obtain ⟨ms, rfl, hms⟩ := ih h
      exact ⟨some '\\' :: e :: ms, rfl, fun more => (quoted_escape hc _).trans (hms more)⟩
  | case9 x m s hquote hslash hcontrol ih =>
      obtain ⟨ms, rfl, hms⟩ := ih h
      refine ⟨m :: ms, rfl, fun more => ?_⟩
      rw [List.cons_append, quoted.eq_def, ← hms more]
      simp [hquote, hslash, hcontrol]

/-- The tokens that are spelled in one way only. -/
def fixed : List (Token × List Char) := [
  (null, ['n', 'u', 'l', 'l']), (bool true, ['t', 'r', 'u', 'e']),
  (bool false, ['f', 'a', 'l', 's', 'e']), (openArray, ['[']), (closeArray, [']']),
  (openObject, ['\x7b']), (closeObject, ['\x7d']), (comma, [',']), (colon, [':'])]

theorem isTokenText_of_mem_fixed {cs : List Char} (h : (t, cs) ∈ fixed) : IsTokenText t cs := by
  simp only [fixed, List.mem_cons, Prod.mk.injEq, List.not_mem_nil, or_false] at h
  rcases h with ⟨rfl, rfl⟩ | ⟨rfl, rfl⟩ | ⟨rfl, rfl⟩ | ⟨rfl, rfl⟩ | ⟨rfl, rfl⟩ | ⟨rfl, rfl⟩ |
    ⟨rfl, rfl⟩ | ⟨rfl, rfl⟩ | ⟨rfl, rfl⟩ <;> constructor

/-- What the rest of a word was cut from. -/
theorem eq_of_word {word : String} {t' : Token} {k : Nat} (hk : (Marks.ofString word).length = k)
    (h : (if (Marks.ofString word).isPrefixOf s then (t', s.drop k) else (bad, [])) = (t, rest)) :
    t = bad ∧ rest = [] ∨ t = t' ∧ s = Marks.ofString word ++ rest := by
  split_ifs at h with hword
  · obtain ⟨rfl, rfl⟩ := Prod.mk.inj h
    obtain ⟨behind, rfl⟩ := List.isPrefixOf_iff_prefix.mp hword
    rw [← hk, List.drop_left]
    exact .inr ⟨rfl, rfl⟩
  · obtain ⟨rfl, rfl⟩ := Prod.mk.inj h
    exact .inl ⟨rfl, rfl⟩

/-- A token that is sound is one of those with a single spelling, a string or a numeral. Nothing is
left behind one that is not. -/
theorem cut_cases (h : cut m s = (t, rest)) : t = bad ∧ rest = [] ∨
    (∃ cs, (t, cs) ∈ fixed ∧ m :: s = cs.map some ++ rest) ∨
    (∃ content, t = string content ∧ m = some '"' ∧ quoted .start s = some (content, rest)) ∨
    ∃ x, t = number x ∧ (∀ c ∈ openers, m ≠ some c) ∧ Numeral.scan (m :: s) = some (x, rest) := by
  have hmark : ∀ {c : Char} {t' : Token}, (t', [c]) ∈ fixed → (t', s) = (t, rest) →
      ∃ cs, (t, cs) ∈ fixed ∧ some c :: s = cs.map some ++ rest := by
    rintro c t' hc ⟨⟩
    exact ⟨[c], hc, rfl⟩
  have hword : ∀ {c : Char} {word : String} {t' : Token}, (t', c :: word.toList) ∈ fixed →
      t = bad ∧ rest = [] ∨ t = t' ∧ s = Marks.ofString word ++ rest → t = bad ∧ rest = [] ∨
        ∃ cs, (t, cs) ∈ fixed ∧ some c :: s = cs.map some ++ rest := by
    rintro c word t' hc (hbad | ⟨rfl, rfl⟩)
    · exact .inl hbad
    · exact .inr ⟨_, hc, rfl⟩
  unfold cut at h
  split at h
  case h_1 | h_2 | h_3 | h_4 | h_5 | h_6 => exact .inr (.inl (hmark (by simp [fixed]) h))
  case h_7 =>
    split at h
    · obtain ⟨rfl, rfl⟩ := Prod.mk.inj h
      exact .inr (.inr (.inl ⟨_, rfl, rfl, ‹_›⟩))
    · obtain ⟨rfl, rfl⟩ := Prod.mk.inj h
      exact .inl ⟨rfl, rfl⟩
  case h_8 | h_9 | h_10 =>
    exact (hword (by simp [fixed]) (eq_of_word rfl h)).imp id .inl
  case h_11 =>
    split at h
    · obtain ⟨rfl, rfl⟩ := Prod.mk.inj h
      refine .inr (.inr (.inr ⟨_, rfl, ?_, ‹_›⟩))
      simp_all [openers]
    · obtain ⟨rfl, rfl⟩ := Prod.mk.inj h
      exact .inl ⟨rfl, rfl⟩

/-- **A token other than a string was cut from one of its spellings.** -/
theorem isTokenText_of_cut (h : cut m s = (t, rest)) (ht : t ≠ bad) (hstring : ∀ c, t ≠ string c) :
    ∃ cs, IsTokenText t cs ∧ m :: s = cs.map some ++ rest := by
  obtain ⟨hbad, -⟩ | ⟨cs, hcs, hs⟩ | ⟨content, rfl, -⟩ | ⟨x, rfl, -, hscan⟩ := cut_cases h
  · exact absurd hbad ht
  · exact ⟨cs, isTokenText_of_mem_fixed hcs, hs⟩
  · exact absurd rfl (hstring content)
  · obtain ⟨cs, hcs, hs⟩ := Numeral.isText_of_scan hscan
    exact ⟨cs, .number hcs, hs⟩

theorem cut_of_mem_fixed {cs : List Char} (h : (t, cs) ∈ fixed)
    (hs : m :: s = cs.map some ++ rest) : cut m s = (t, rest) := by
  simp only [fixed, List.mem_cons, Prod.mk.injEq, List.not_mem_nil, or_false] at h
  rcases h with ⟨rfl, rfl⟩ | ⟨rfl, rfl⟩ | ⟨rfl, rfl⟩ | ⟨rfl, rfl⟩ | ⟨rfl, rfl⟩ | ⟨rfl, rfl⟩ |
    ⟨rfl, rfl⟩ | ⟨rfl, rfl⟩ | ⟨rfl, rfl⟩ <;> obtain ⟨rfl, rfl⟩ := List.cons.inj hs <;>
    simp [cut, Marks.ofString]

/-- More text does not change a token, unless the token might go on there. -/
theorem cut_append_more (h : cut m s = (t, rest)) (ht : t ≠ bad)
    (hrest : t.isMark = true ∨ rest ≠ []) (more : Marks) :
    cut m (s ++ more) = (t, rest ++ more) := by
  obtain ⟨hbad, -⟩ | ⟨cs, hcs, hs⟩ | ⟨content, rfl, rfl, hquoted⟩ | ⟨x, rfl, hm, hscan⟩ :=
    cut_cases h
  · exact absurd hbad ht
  · refine cut_of_mem_fixed hcs ?_
    rw [← List.append_assoc, ← hs, List.cons_append]
  · obtain ⟨ms, rfl, hms⟩ := exists_of_quoted hquoted
    rw [List.append_assoc]
    simp [cut, hms]
  · have hne : rest ≠ [] := hrest.resolve_left Bool.false_ne_true
    have hmore := Numeral.scan_append_of_ne_nil hscan hne more
    rcases m with - | c
    · cases hscan
    · exact cut_of_not_mem_openers (fun hc => hm c hc rfl) hmore

/-- A token takes the mark with which it begins. -/
theorem length_cut_le (m : Option Char) (s : Marks) : (cut m s).2.length ≤ s.length := by
  rcases h : cut m s with ⟨t, rest⟩
  have hlength : ∀ cs : List Char, cs ≠ [] → m :: s = cs.map some ++ rest →
      rest.length ≤ s.length := by
    intro cs hcs hs
    have hlengths := congrArg List.length hs
    have hpos := List.length_pos_iff.mpr hcs
    simp only [List.length_cons, List.length_append, List.length_map] at hlengths
    omega
  obtain ⟨-, rfl⟩ | ⟨cs, hcs, hs⟩ | ⟨content, -, -, hquoted⟩ | ⟨x, -, -, hscan⟩ := cut_cases h
  · exact Nat.zero_le _
  · have hall : ∀ p ∈ fixed, p.2 ≠ [] := by decide
    exact hlength cs (hall _ hcs) hs
  · obtain ⟨ms, rfl, -⟩ := exists_of_quoted hquoted
    simp
  · obtain ⟨cs, hcs, hs⟩ := Numeral.isText_of_scan hscan
    obtain ⟨c, cs, rfl, -⟩ := head_of_number hcs
    exact hlength _ (List.cons_ne_nil c cs) hs

/-! ### Texts -/

theorem lexOnto_eq_append (before : List Token) (fuel : Nat) (s : Marks) :
    lexOnto before fuel s = before.reverse ++ lexOnto [] fuel s := by
  induction fuel generalizing before s with
  | zero => simp [lexOnto]
  | succ fuel ih =>
      rw [lexOnto, lexOnto]
      rcases s.dropWhile isSpace with - | ⟨m, s⟩
      · simp
      · simp only []
        rw [ih (_ :: before), ih [_]]
        simp

theorem length_lt_of_dropWhile (h : s.dropWhile isSpace = m :: rest) :
    (cut m rest).2.length < s.length := by
  have hdrop := (List.dropWhile_sublist (isSpace ·) (l := s)).length_le
  have hcut := length_cut_le m rest
  rw [h, List.length_cons] at hdrop
  omega

/-- Fuel for every mark is enough. -/
theorem lexOnto_congr (fuel fuel' : Nat) (h : s.length ≤ fuel) (h' : s.length ≤ fuel') :
    lexOnto [] fuel s = lexOnto [] fuel' s := by
  induction fuel generalizing fuel' s with
  | zero =>
      obtain rfl := List.eq_nil_of_length_eq_zero (Nat.le_zero.mp h)
      cases fuel' <;> rfl
  | succ fuel ih =>
      cases fuel' with
      | zero =>
          obtain rfl := List.eq_nil_of_length_eq_zero (Nat.le_zero.mp h')
          rfl
      | succ fuel' =>
          rw [lexOnto, lexOnto]
          rcases hs : s.dropWhile isSpace with - | ⟨m, s'⟩
          · rfl
          · have hlt := length_lt_of_dropWhile hs
            simp only []
            rw [lexOnto_eq_append _ fuel, lexOnto_eq_append _ fuel', ih fuel' (by omega) (by omega)]

theorem lex_of_blank (h : s.dropWhile isSpace = []) : lex s = [] := by
  rw [lex]
  rcases s.length with - | fuel
  · rfl
  · rw [lexOnto, h]
    rfl

/-- The tokens of a text are the first one and those of what is left behind it. -/
theorem lex_of_dropWhile (h : s.dropWhile isSpace = m :: rest) :
    lex s = (cut m rest).1 :: lex (cut m rest).2 := by
  have hlt := length_lt_of_dropWhile h
  have hfuel : lex s = lexOnto [] (s.length + 1) s := lexOnto_congr _ _ (by omega) (by omega)
  rw [hfuel, lexOnto, h]
  simp only []
  rw [lexOnto_eq_append, lexOnto_congr _ (cut m rest).2.length (by omega) (by omega)]
  rfl

/-- Texts, token by token. -/
theorem token_induction {P : Marks → Prop} (blank : ∀ s, s.dropWhile isSpace = [] → P s)
    (token : ∀ s m rest, s.dropWhile isSpace = m :: rest → P (cut m rest).2 → P s) (s : Marks) :
    P s := by
  induction hlength : s.length using Nat.strong_induction_on generalizing s with
  | _ n ih =>
      subst hlength
      rcases hs : s.dropWhile isSpace with - | ⟨m, rest⟩
      · exact blank s hs
      · exact token s m rest hs (ih _ (length_lt_of_dropWhile hs) _ rfl)

/-- The white space in front of a text. -/
theorem exists_blanks (s : Marks) : ∃ blanks, IsBlank blanks ∧
    s = blanks.map some ++ s.dropWhile isSpace := by
  induction s with
  | nil => exact ⟨[], isBlank_nil, rfl⟩
  | cons m s ih =>
      by_cases hm : isSpace m = true
      · obtain ⟨blanks, hblanks, hs⟩ := ih
        obtain ⟨c, rfl, hc⟩ : ∃ c, m = some c ∧ (c = ' ' ∨ c = '\n' ∨ c = '\t' ∨ c = '\r') := by
          simp only [isSpace, Bool.or_eq_true, decide_eq_true_eq] at hm
          rcases hm with ((rfl | rfl) | rfl) | rfl <;> simp
        refine ⟨c :: blanks, List.forall_mem_cons.mpr ⟨hc, hblanks⟩, ?_⟩
        rw [List.dropWhile_cons_of_pos hm, List.map_cons, List.cons_append, ← hs]
      · exact ⟨[], isBlank_nil, by rw [List.dropWhile_cons_of_neg hm]; rfl⟩

/-- **A text that is cut into sound tokens, none of them a string, is a text of these tokens.** -/
theorem isText_of_lex (hbad : bad ∉ lex s) (hstring : ∀ c, string c ∉ lex s) :
    ∃ cs, IsText (lex s) cs ∧ s = cs.map some := by
  induction s using token_induction with
  | blank s h =>
      obtain ⟨blanks, hblanks, hs⟩ := exists_blanks s
      rw [h, List.append_nil] at hs
      rw [lex_of_blank h]
      exact ⟨blanks, .nil hblanks, hs⟩
  | token s m rest h ih =>
      rw [lex_of_dropWhile h] at hbad hstring ⊢
      rcases hcut : cut m rest with ⟨t, behind⟩
      simp only [hcut, List.mem_cons, not_or] at hbad hstring ih ⊢
      obtain ⟨blanks, hblanks, hs⟩ := exists_blanks s
      obtain ⟨cs, hcs, hfront⟩ :=
        isTokenText_of_cut hcut (Ne.symm hbad.1) fun c => Ne.symm (hstring c).1
      obtain ⟨ds, hds, rfl⟩ := ih hbad.2 fun c => (hstring c).2
      refine ⟨blanks ++ cs ++ ds, .cons hblanks hcs hds, ?_⟩
      rw [hs, h, hfront]
      simp

theorem lex_blank_append {blanks : Marks} (h : ∀ m ∈ blanks, isSpace m = true) (more : Marks) :
    lex (blanks ++ more) = lex more := by
  have hdrop : (blanks ++ more).dropWhile isSpace = more.dropWhile isSpace :=
    List.dropWhile_append_of_pos h
  rcases hmore : more.dropWhile isSpace with - | ⟨m, rest⟩
  · rw [lex_of_blank hmore, lex_of_blank (hdrop.trans hmore)]
  · rw [lex_of_dropWhile hmore, lex_of_dropWhile (hdrop.trans hmore)]

/-- **What follows a mark of punctuation is cut by itself.** -/
theorem lex_append (hbad : bad ∉ lex s) (hlast : ∀ t ∈ (lex s).getLast?, t.isMark = true)
    (more : Marks) : lex (s ++ more) = lex s ++ lex more := by
  induction s using token_induction with
  | blank s h =>
      rw [lex_of_blank h, List.nil_append]
      exact lex_blank_append (List.dropWhile_eq_nil_iff.mp h) more
  | token s m rest h ih =>
      rw [lex_of_dropWhile h] at hbad hlast ⊢
      rcases hcut : cut m rest with ⟨t, behind⟩
      simp only [hcut, List.mem_cons, not_or] at hbad hlast ih ⊢
      have hdrop : (s ++ more).dropWhile isSpace = m :: (rest ++ more) := by
        rw [List.dropWhile_append, h]
        rfl
      have hlast' : ∀ u ∈ (lex behind).getLast?, u.isMark = true := by
        intro u hu
        refine hlast u ?_
        rw [List.getLast?_cons, Option.mem_def.mp hu]
        rfl
      -- behind a token that is no mark there is another one, so the token has come to its end
      have hends : t.isMark = true ∨ behind ≠ [] := by
        by_cases hbehind : behind = []
        · subst hbehind
          exact .inl (hlast t rfl)
        · exact .inr hbehind
      rw [lex_of_dropWhile hdrop, cut_append_more hcut (Ne.symm hbad.1) hends, List.cons_append,
        ih hbad.2 hlast']

theorem ends_append_of_isText {cs : List Char} (h : IsText ts cs)
    (hts : ∀ t ∈ ts.head?, t.isMark = true) (hmore : Numeral.Ends rest) :
    Numeral.Ends (cs.map some ++ rest) := by
  cases h with
  | nil hblanks => exact ends_blank_append hblanks hmore
  | cons hblanks ht hrest =>
      rw [List.append_assoc, List.map_append, List.append_assoc, List.map_append, List.append_assoc]
      exact ends_blank_append hblanks (ends_of_isMark ht (hts _ rfl) _)

/-- **What follows a text of tokens is cut by itself**, if no numeral could go on there. -/
theorem lex_append_of_isText {cs : List Char} (h : IsText ts cs) (hts : Separated ts)
    (hmore : Numeral.Ends rest) : lex (cs.map some ++ rest) = ts ++ lex rest := by
  induction h with
  | nil hblanks => exact lex_blank_append hblanks.isSpace rest
  | @cons blanks cs ds t ts hblanks ht hds ih =>
      obtain ⟨hpair, hlater⟩ := List.isChain_cons.mp hts
      have hneighbour : t.isMark = false → Numeral.Ends (ds.map some ++ rest) := fun hmark =>
        ends_append_of_isText hds (fun t' ht' => by simpa [hmark] using hpair t' ht') hmore
      obtain ⟨c, cs', rfl, hspace, hcut⟩ := cut_append ht hneighbour
      have hdrop : ((blanks ++ c :: cs' ++ ds).map some ++ rest).dropWhile isSpace =
          some c :: (cs'.map some ++ (ds.map some ++ rest)) := by
        simp only [List.map_append, List.append_assoc]
        exact Text.dropWhile_run_append hblanks.isSpace fun m hm => Option.some.inj hm ▸ hspace
      rw [lex_of_dropWhile hdrop, hcut, List.cons_append, ih hlater]

end Token

end QueryPrep.Json
