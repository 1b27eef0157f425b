import Mathlib.Data.List.Chain
import QueryPrep.Json.Token
import QueryPrep.Proofs.Json.Numeral

/-!
# Texts of tokens

How strings and the other tokens of JSON are spelled, and how a text is put together from them: the
tokens stand one after the other, with white space in front of any of them and at the end. A string
may be written in many ways, since each of its characters may stand for itself or be escaped, and a
character beyond the first plane may be escaped as a pair of halves. Halves are found nowhere else,
so every string stands for characters.

Main result: a text that is put together from tokens is cut into these tokens
(`Token.lex_of_isText`). Of two neighbours at least one must be a mark of punctuation, since two
numerals with nothing between them would be read as one.
-/

namespace QueryPrep.Json

open Text (Marks)

namespace Token

/-! ### Strings -/

/-- The escapes of one letter, with the characters they stand for. -/
def shortEscapes : List (Char × Char) := [
  ('"', '"'), ('\\', '\\'), ('/', '/'), ('b', '\x08'), ('f', '\x0c'), ('n', '\n'), ('r', '\r'),
  ('t', '\t')]

/-- Four hexadecimal digits and their value. -/
def IsUnit (u : Nat) (cs : List Char) : Prop :=
  cs.length = 4 ∧ (∀ c ∈ cs, Hexadecimal.isDigit c = true) ∧ Hexadecimal.value cs = u

/-- The spellings of characters between quotes. -/
inductive IsStringText : List Char → List Char → Prop where
  | nil : IsStringText [] []
  | plain {c : Char} {s cs : List Char} (hspace : ' ' ≤ c) (hquote : c ≠ '"') (hslash : c ≠ '\\')
      (h : IsStringText s cs) : IsStringText (c :: s) (c :: cs)
  | short {e c : Char} {s cs : List Char} (he : (e, c) ∈ shortEscapes) (h : IsStringText s cs) :
      IsStringText (c :: s) ('\\' :: e :: cs)
  | unit {u : Nat} {digits s cs : List Char} (hu : IsUnit u digits)
      (hhalf : u < 0xD800 ∨ 0xE000 ≤ u) (h : IsStringText s cs) :
      IsStringText (Char.ofNat u :: s) ('\\' :: 'u' :: digits ++ cs)
  | pair {high low : Nat} {digits digits' s cs : List Char} (hhigh : IsUnit high digits)
      (hlow : IsUnit low digits') (hrange : 0xD800 ≤ high ∧ high < 0xDC00)
      (hrange' : 0xDC00 ≤ low ∧ low < 0xE000) (h : IsStringText s cs) :
      IsStringText (Char.ofNat (0x10000 + (high - 0xD800) * 0x400 + (low - 0xDC00)) :: s)
        ('\\' :: 'u' :: digits ++ ('\\' :: 'u' :: digits' ++ cs))

variable {cs s : List Char} {u : Nat} {rest : Marks}

theorem escaped?_of_mem {e c : Char} (h : (e, c) ∈ shortEscapes) : escaped? (some e) = some c := by
  have hall : ∀ p ∈ shortEscapes, escaped? (some p.1) = some p.2 := by decide
  exact hall (e, c) h

/-- An escape of four digits is no escape of one letter. -/
theorem quoted_short {e c : Char} (h : (e, c) ∈ shortEscapes) (x : Content) :
    quoted x (some '\\' :: some e :: rest) = quoted (x.push (some c)) rest := by
  have hu : e ≠ 'u' := by
    rintro rfl
    exact absurd (escaped?_of_mem h) (by simp [escaped?])
  rw [quoted]
  · simp [escaped?_of_mem h]
  · intro a b c d s heq
    exact absurd (Option.some.inj heq) hu

theorem quoted_unit (h : IsUnit u cs) (x : Content) :
    quoted x (some '\\' :: some 'u' :: (cs.map some ++ rest)) = quoted (x.pushUnit u) rest := by
  obtain ⟨hlength, hdigits, rfl⟩ := h
  obtain ⟨a, b, c, d, rfl⟩ : ∃ a b c d, cs = [a, b, c, d] := by
    rcases cs with - | ⟨a, - | ⟨b, - | ⟨c, - | ⟨d, - | ⟨e, cs⟩⟩⟩⟩⟩ <;> simp at hlength
    exact ⟨a, b, c, d, rfl⟩
  have hhex : hex4? (some a) (some b) (some c) (some d) =
      some (Hexadecimal.value [a, b, c, d]) := by
    have hall : [a, b, c, d].all Hexadecimal.isDigit = true := by simpa using hdigits
    simp only [hex4?, Option.bind_eq_bind, Option.bind_some, if_pos hall]
  simp only [List.map_cons, List.map_nil, List.cons_append, List.nil_append]
  rw [quoted]
  simp [hhex]

theorem quoted_plain {c : Char} (hspace : ' ' ≤ c) (hquote : c ≠ '"') (hslash : c ≠ '\\')
    (x : Content) : quoted x (some c :: rest) = quoted (x.push (some c)) rest := by
  have hlt : ¬ c < ' ' := Char.not_lt.mpr hspace
  rw [quoted.eq_def]
  simp [hquote, hslash, hlt]

/-- **The characters of a string are read back**, behind those that have been read before. -/
theorem quoted_append (h : IsStringText s cs) (before : List Char) :
    quoted ⟨some before, none⟩ (cs.map some ++ some '"' :: rest) =
      some (some (String.ofList (before.reverse ++ s)), rest) := by
  induction h generalizing before with
  | nil =>
      rw [List.map_nil, List.nil_append, quoted.eq_def]
      simp [Content.text]
  | @plain c s cs hspace hquote hslash h ih =>
      rw [List.map_cons, List.cons_append, quoted_plain hspace hquote hslash]
      simpa [Content.push] using ih (c :: before)
  | @short e c s cs he h ih =>
      rw [List.map_cons, List.map_cons, List.cons_append, List.cons_append, quoted_short he]
      simpa [Content.push] using ih (c :: before)
  | @unit u digits s cs hu hhalf h ih =>
      have hpush : Content.pushUnit ⟨some before, none⟩ u =
          ⟨some (Char.ofNat u :: before), none⟩ := by
        rw [Content.pushUnit, if_neg (by omega), if_neg (by omega)]
        rfl
      simp only [List.map_cons, List.map_append, List.cons_append, List.append_assoc]
      rw [quoted_unit hu, hpush]
      simpa using ih (Char.ofNat u :: before)
  | @pair high low digits digits' s cs hhigh hlow hrange hrange' h ih =>
      -- the first half waits for the second one
      have hpush : Content.pushUnit ⟨some before, none⟩ high = ⟨some before, some high⟩ := by
        rw [Content.pushUnit, if_pos hrange]
        rfl
      have hpush' : Content.pushUnit ⟨some before, some high⟩ low =
          ⟨some (Char.ofNat (0x10000 + (high - 0xD800) * 0x400 + (low - 0xDC00)) :: before),
            none⟩ := by
        rw [Content.pushUnit, if_neg (by omega), if_pos hrange']
        rfl
      simp only [List.map_cons, List.map_append, List.cons_append, List.append_assoc]
      rw [quoted_unit hhigh, hpush, quoted_unit hlow, hpush']
      simpa using ih (_ :: before)

/-! ### Tokens -/

/-- The spellings of a token. -/
inductive IsTokenText : Token → List Char → Prop where
  | null : IsTokenText null ['n', 'u', 'l', 'l']
  | true : IsTokenText (bool true) ['t', 'r', 'u', 'e']
  | false : IsTokenText (bool false) ['f', 'a', 'l', 's', 'e']
  | number {x : Numeral} {cs : List Char} (h : x.IsText cs) : IsTokenText (number x) cs
  | string {s cs : List Char} (h : IsStringText s cs) :
      IsTokenText (string (some (String.ofList s))) ('"' :: cs ++ ['"'])
  | openArray : IsTokenText openArray ['[']
  | closeArray : IsTokenText closeArray [']']
  | openObject : IsTokenText openObject ['\x7b']
  | closeObject : IsTokenText closeObject ['\x7d']
  | comma : IsTokenText comma [',']
  | colon : IsTokenText colon [':']

/-- White space. -/
def IsBlank (cs : List Char) : Prop :=
  ∀ c ∈ cs, c = ' ' ∨ c = '\n' ∨ c = '\t' ∨ c = '\r'

/-- The texts of some tokens, with white space between them as one likes. -/
inductive IsText : List Token → List Char → Prop where
  | nil {blanks : List Char} (hblanks : IsBlank blanks) : IsText [] blanks
  | cons {blanks cs rest : List Char} {t : Token} {ts : List Token} (hblanks : IsBlank blanks)
      (ht : IsTokenText t cs) (hts : IsText ts rest) : IsText (t :: ts) (blanks ++ cs ++ rest)

/-- Tokens of punctuation, which need nothing around them. -/
def isMark : Token → Bool
  | openArray | closeArray | openObject | closeObject | comma | colon => true
  | _ => false

/-- Of two neighbours at least one is a mark. -/
def Separated (ts : List Token) : Prop :=
  ts.IsChain fun t t' => t.isMark ∨ t'.isMark

variable {t : Token} {ts : List Token}

/-- A numeral begins with a sign or a digit. -/
theorem head_of_number {x : Numeral} (h : x.IsText cs) :
    ∃ c cs', cs = c :: cs' ∧ (c = '-' ∨ c.isDigit = true) := by
  obtain ⟨hx, exponent, -, rfl⟩ := h
  obtain ⟨hne, hdigits⟩ := hx.whole
  rcases hsign : x.negative with - | -
  · rcases hw : x.whole with - | ⟨d, ds⟩
    · exact absurd hw hne
    · exact ⟨d, ds ++ x.fractionText ++ exponent, by simp, .inr (hdigits d (by simp [hw]))⟩
  · exact ⟨'-', x.whole ++ x.fractionText ++ exponent, by simp, .inl rfl⟩

/-- The characters with which a token begins that is no numeral. -/
def openers : List Char :=
  ['[', ']', '\x7b', '\x7d', ',', ':', '"', 'n', 't', 'f']

theorem cut_of_not_mem_openers {c : Char} (h : c ∉ openers) {s rest : Marks} {x : Numeral}
    (hscan : Numeral.scan (some c :: s) = some (x, rest)) : cut (some c) s = (number x, rest) := by
  simp only [openers, List.mem_cons, List.not_mem_nil, or_false, not_or] at h
  unfold cut
  split <;> simp_all

/-- **A token is found in front of what follows it**; a numeral must not go on there. -/
theorem cut_append (h : IsTokenText t cs) (hends : t.isMark = false → Numeral.Ends rest) :
    ∃ c cs', cs = c :: cs' ∧ isSpace (some c) = false ∧
      cut (some c) (cs'.map some ++ rest) = (t, rest) := by
  cases h with
  | null => exact ⟨'n', _, rfl, rfl, by simp [cut, Marks.ofString]⟩
  | true => exact ⟨'t', _, rfl, rfl, by simp [cut, Marks.ofString]⟩
  | false => exact ⟨'f', _, rfl, rfl, by simp [cut, Marks.ofString]⟩
  | @number x cs h =>
      obtain ⟨c, cs', rfl, hc⟩ := head_of_number h
      have hscan := Numeral.scan_append h (hends rfl)
      -- so no other token and no white space can be meant
      have hnot : c ∉ openers ∧ isSpace (some c) = false := by
        rcases hc with rfl | hc
        · decide
        · constructor
          · intro hmem
            simp only [openers, List.mem_cons, List.not_mem_nil, or_false] at hmem
            rcases hmem with rfl | rfl | rfl | rfl | rfl | rfl | rfl | rfl | rfl | rfl <;>
              exact absurd hc (by decide)
          · rcases hspace : isSpace (some c) with - | -
            · rfl
            · simp only [isSpace, Option.some.injEq, Bool.or_eq_true, decide_eq_true_eq] at hspace
              rcases hspace with ((rfl | rfl) | rfl) | rfl <;> exact absurd hc (by decide)
      exact ⟨c, cs', rfl, hnot.2, cut_of_not_mem_openers hnot.1 hscan⟩
  | @string s cs h =>
      refine ⟨'"', cs ++ ['"'], rfl, rfl, ?_⟩
      have hread : quoted ⟨some [], none⟩ (cs.map some ++ some '"' :: rest) =
          some (some (String.ofList s), rest) := quoted_append h []
      simp only [List.map_append, List.append_assoc, List.map_cons, List.map_nil, List.cons_append,
        List.nil_append]
      simp [cut, Content.start, hread]
  | openArray => exact ⟨'[', [], rfl, rfl, rfl⟩
  | closeArray => exact ⟨']', [], rfl, rfl, rfl⟩
  | openObject => exact ⟨'\x7b', [], rfl, rfl, rfl⟩
  | closeObject => exact ⟨'\x7d', [], rfl, rfl, rfl⟩
  | comma => exact ⟨',', [], rfl, rfl, rfl⟩
  | colon => exact ⟨':', [], rfl, rfl, rfl⟩

/-! ### Texts -/

theorem isBlank_nil : IsBlank [] :=
  fun _ hc => absurd hc List.not_mem_nil

theorem isBlank_singleton {c : Char} (h : c = ' ' ∨ c = '\n' ∨ c = '\t' ∨ c = '\r') :
    IsBlank [c] :=
  fun _ hc => List.mem_singleton.mp hc ▸ h

theorem IsBlank.isSpace {blanks : List Char} (h : IsBlank blanks) :
    ∀ m ∈ blanks.map some, Token.isSpace m = true := by
  intro m hm
  obtain ⟨c, hc, rfl⟩ := List.mem_map.mp hm
  rcases h c hc with rfl | rfl | rfl | rfl <;> rfl

theorem ends_of_isMark (h : IsTokenText t cs) (ht : t.isMark = true) (rest : Marks) :
    Numeral.Ends (cs.map some ++ rest) := by
  intro m hm
  cases h with
  | openArray | closeArray | openObject | closeObject | comma | colon =>
      obtain rfl := Option.some.inj hm
      decide
  | null | true | false | number | string => exact absurd ht Bool.false_ne_true

theorem ends_blank_append {blanks : List Char} (h : IsBlank blanks) (hrest : Numeral.Ends rest) :
    Numeral.Ends (blanks.map some ++ rest) := by
  rcases blanks with - | ⟨c, blanks⟩
  · exact hrest
  · intro m hm
    obtain rfl := Option.some.inj hm
    rcases h c List.mem_cons_self with rfl | rfl | rfl | rfl <;> decide

/-- A numeral ends where a text begins whose first token is a mark. -/
theorem ends_of_isText (h : IsText ts cs) (hts : ∀ t ∈ ts.head?, t.isMark = true) :
    Numeral.Ends (cs.map some) := by
  cases h with
  | nil hblanks =>
      have hnothing : Numeral.Ends [] := fun m hm => by cases hm
      simpa using ends_blank_append hblanks hnothing
  | cons hblanks ht hrest =>
      rw [List.append_assoc, List.map_append, List.map_append]
      exact ends_blank_append hblanks (ends_of_isMark ht (hts _ rfl) _)

/-- The tokens of a text are cut off one by one, behind those that have been cut off before. -/
theorem lexOnto_of_isText (h : IsText ts cs) (hts : Separated ts) (before : List Token) {fuel : Nat}
    (hfuel : cs.length ≤ fuel) : lexOnto before fuel (cs.map some) = before.reverse ++ ts := by
  induction h generalizing before fuel with
  | nil hblanks =>
      rw [List.append_nil]
      cases fuel with
      | zero => rfl
      | succ fuel => rw [lexOnto, List.dropWhile_eq_nil_iff.mpr hblanks.isSpace]
  | @cons blanks cs rest t ts hblanks ht hrest ih =>
      obtain ⟨hpair, hlater⟩ := List.isChain_cons.mp hts
      have hneighbour : t.isMark = false → Numeral.Ends (rest.map some) := fun hmark =>
        ends_of_isText hrest fun t' ht' => by simpa [hmark] using hpair t' ht'
      obtain ⟨c, cs', rfl, hspace, hcut⟩ := cut_append ht hneighbour
      have hdrop : ((blanks ++ c :: cs' ++ rest).map some).dropWhile Token.isSpace =
          some c :: (cs'.map some ++ rest.map some) := by
        rw [List.append_assoc, List.map_append, List.map_append]
        exact Text.dropWhile_run_append hblanks.isSpace fun m hm => Option.some.inj hm ▸ hspace
      simp only [List.length_append, List.length_cons] at hfuel
      cases fuel with
      | zero => omega
      | succ fuel =>
          rw [lexOnto, hdrop]
          simp only [hcut]
          rw [ih hlater (t :: before) (by omega)]
          simp

/-- **A text that is put together from tokens is cut into these tokens.** -/
theorem lex_of_isText (h : IsText ts cs) (hts : Separated ts) : lex (cs.map some) = ts := by
  rw [lex, lexOnto_of_isText h hts [] (by simp), List.reverse_nil, List.nil_append]

/-! ### Putting texts together -/

theorem IsBlank.append {a b : List Char} (ha : IsBlank a) (hb : IsBlank b) : IsBlank (a ++ b) :=
  List.forall_mem_append.mpr ⟨ha, hb⟩

theorem IsText.blank_append {blanks : List Char} (hblanks : IsBlank blanks) (h : IsText ts cs) :
    IsText ts (blanks ++ cs) := by
  cases h with
  | nil hb => exact .nil (hblanks.append hb)
  | cons hb ht hts =>
      rw [List.append_assoc, ← List.append_assoc, ← List.append_assoc]
      exact .cons (hblanks.append hb) ht hts

/-- Two texts, one after the other. -/
theorem IsText.append {us : List Token} {ds : List Char} (h : IsText ts cs) (h' : IsText us ds) :
    IsText (ts ++ us) (cs ++ ds) := by
  induction h with
  | nil hblanks => exact h'.blank_append hblanks
  | cons hblanks ht hts ih =>
      rw [List.append_assoc]
      exact .cons hblanks ht ih

/-- A token with nothing around it. -/
theorem IsTokenText.isText (h : IsTokenText t cs) : IsText [t] cs := by
  simpa using IsText.cons isBlank_nil h (.nil isBlank_nil)

end Token

end QueryPrep.Json
