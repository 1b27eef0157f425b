import QueryPrep.Proofs.Json.Building
import QueryPrep.Proofs.Json.Lexing
import QueryPrep.Proofs.Json.Record
import QueryPrep.Proofs.Json.Writing

/-!
# Integers in documents

A numeral stands for an integer if it has neither a fraction nor an exponent and is not the negative
zero (`Numeral.IsLiteral`); whatever else it may look like, it is a real number. So an integer has
one literal, the plain numeral (`Numeral.isLiteral_iff`), and a tree is read as an integer exactly
if it means one that is in bounds (`Node.integer_eq_ok_iff`).

A document that is whole has the tokens of its root and nothing else (`Document.isText_tokens`).
-/

namespace QueryPrep.Json

/-! ### Literals -/

namespace Numeral

variable {x : Numeral} {cs : List Char} {i : Int}

/-- The literals of an integer. -/
def IsLiteral (i : Int) (cs : List Char) : Prop :=
  ∃ x : Numeral, x.IsText cs ∧ x.fraction = none ∧ x.exponent = none ∧
    (x.negative = false ∧ i = Decimal.value x.whole ∨
      x.negative = true ∧ Decimal.value x.whole ≠ 0 ∧ i = -Decimal.value x.whole)

theorem value_of_absorb {n : Nat} (h : absorb 0 x.whole = (n, [])) :
    Decimal.value x.whole = n := by
  have hfold : ∀ (ds : List Char) (k : Nat), absorb k ds = (n, []) →
      ds.foldl (fun n c => n * 10 + Decimal.digitValue c) k = n := by
    intro ds
    induction ds with
    | nil => exact fun k h => (Prod.mk.inj h).1
    | cons c ds ih =>
        intro k h
        rw [absorb] at h
        split_ifs at h
        · exact ih _ h
        · cases (Prod.mk.inj h).2
  exact hfold _ _ h

/-- What counts as an integer is a literal of it. -/
theorem isLiteral_of_number? (htext : x.IsText cs) (h : x.number? = some (.integer i)) :
    IsLiteral i cs := by
  refine ⟨x, htext, ?_⟩
  unfold number? at h
  rcases habsorb : absorb 0 x.whole with ⟨n, left⟩
  simp only [habsorb] at h
  split_ifs at h with hplain _ hsign hbounds _
  · cases h
  all_goals
    simp only [Bool.or_eq_true, not_or, Bool.not_eq_true, Option.isSome_eq_false_iff,
      Option.isNone_iff_eq_none, Bool.not_eq_false', List.isEmpty_iff] at hplain
    obtain ⟨⟨hfraction, hexponent⟩, rfl⟩ := hplain
    rw [value_of_absorb habsorb]
  · refine ⟨hfraction, hexponent, .inl ⟨by simpa using hsign, ?_⟩⟩
    cases h
    rfl
  · refine ⟨hfraction, hexponent, .inr ⟨by simpa using hsign, hbounds.1.ne', ?_⟩⟩
    cases h
    rfl
  · cases h

/-- **An integer has one literal**, which is its plain numeral. -/
theorem isLiteral_iff : IsLiteral i cs ↔ cs = Decimal.write i := by
  constructor
  · rintro ⟨⟨negative, whole, fraction, exponent⟩, htext, hfraction, hexponent, hsign⟩
    simp only at hfraction hexponent hsign
    subst hfraction hexponent
    obtain ⟨hx, exponent, hnone, rfl⟩ := htext
    have hwhole : Decimal.digits (Decimal.value whole) = whole :=
      Decimal.digits_value hx.whole.1 hx.whole.2 hx.no_leading_zero
    cases hnone
    rcases hsign with ⟨rfl, rfl⟩ | ⟨rfl, hzero, rfl⟩
    · change [] ++ whole ++ [] ++ [] = Decimal.digits (Decimal.value whole)
      rw [hwhole, List.append_nil, List.append_nil, List.nil_append]
    · obtain ⟨n, hn⟩ := Nat.exists_eq_succ_of_ne_zero hzero
      rw [hn] at hwhole ⊢
      change ['-'] ++ whole ++ [] ++ [] = '-' :: Decimal.digits (n + 1)
      rw [hwhole, List.append_nil, List.append_nil, List.singleton_append]
  · rintro rfl
    refine ⟨ofInt i, isText_ofInt i, rfl, rfl, ?_⟩
    simp only [ofInt, Decimal.value_digits, decide_eq_false_iff_not, decide_eq_true_eq]
    omega

end Numeral

/-! ### Reading integers -/

namespace Node

variable {n : Node} {ns : List Node} {v w : Value} {i least greatest : Int}

theorem meaning?_eq_null_iff : n.meaning? = some .null ↔ n = .null := by
  cases n with
  | array items closed => cases closed <;> simp [meaning?]
  | object ms closed => cases closed <;> simp [meaning?]
  | _ => simp [meaning?]

theorem meaning?_eq_int_iff :
    n.meaning? = some (.int i) ↔ ∃ x, n = .number x ∧ x.number? = some (.integer i) := by
  cases n with
  | array items closed => cases closed <;> simp [meaning?, Value.int]
  | object ms closed => cases closed <;> simp [meaning?, Value.int]
  | _ => simp [meaning?, Value.int]

theorem itemMeanings?_eq_pair_iff : itemMeanings? ns = some [v, w] ↔
    ∃ m n, ns = [m, n] ∧ m.meaning? = some v ∧ n.meaning? = some w := by
  rcases ns with - | ⟨m, - | ⟨n, - | ⟨k, ns⟩⟩⟩ <;>
    simp [itemMeanings?, Option.bind_eq_some_iff]

theorem memberMeanings?_eq_pair_iff {ms : List (Option String × Node)} {k l : String} :
    memberMeanings? ms = some [(k, v), (l, w)] ↔
      ∃ m n, ms = [(some k, m), (some l, n)] ∧ m.meaning? = some v ∧ n.meaning? = some w := by
  rcases ms with - | ⟨⟨- | _, m⟩, - | ⟨⟨- | _, n⟩, - | ⟨⟨_, _⟩, ms⟩⟩⟩ <;>
    simp [memberMeanings?, Option.bind_eq_some_iff]
  grind

/-- **An integer is read from what means one**, if it is in bounds. -/
theorem integer_eq_ok_iff : n.integer least greatest = .ok i ↔
    n.meaning? = some (.int i) ∧ least ≤ i ∧ i ≤ greatest := by
  cases n with
  | number x =>
      rw [integer, meaning?]
      rcases x.number? with - | (j | y)
      · simp
      · simp only [Option.map_some, Value.int, Option.some.injEq, Value.number.injEq,
          Number.integer.injEq]
        split_ifs with h
        · simp only [Except.ok.injEq]
          exact ⟨fun hj => ⟨hj, hj ▸ h⟩, And.left⟩
        · simp only [false_iff, not_and]
          rintro rfl
          exact not_and.mp h
      · simp [Value.int]
  | array items closed => cases closed <;> simp [integer, meaning?, Value.int]
  | object ms closed => cases closed <;> simp [integer, meaning?, Value.int]
  | _ => simp [integer, meaning?, Value.int]

end Node

/-! ### Documents that are read -/

namespace Token

variable {t : Token} {ts : List Token} {cs : List Char}

theorem exists_of_isText_cons (h : IsText (t :: ts) cs) : ∃ blanks ds rest, IsBlank blanks ∧
    IsTokenText t ds ∧ IsText ts rest ∧ cs = blanks ++ ds ++ rest := by
  cases h with
  | cons hblanks ht hts => exact ⟨_, _, _, hblanks, ht, hts, rfl⟩

theorem isTokenText_number_iff {x : Numeral} : IsTokenText (number x) cs ↔ x.IsText cs :=
  ⟨fun | .number h => h, .number⟩

end Token

namespace Document

variable {α : Type} {reader : Node → Except Fault α} {text : String} {a : α} {n : Node}

theorem read_eq_ok_iff : read reader text = .ok a ↔
    ∃ n, ofMarks (.ofString text) = ⟨n, false⟩ ∧ reader n = .ok a := by
  rw [read, bind_eq_ok_iff]
  obtain ⟨n, hasMore⟩ := ofMarks (.ofString text)
  cases hasMore <;> simp

/-- **A whole document has the tokens of its root**, unless there is a string in it, whose content
may be spelled in a way that is not a text. -/
theorem isText_tokens (h : ofMarks (.ofString text) = ⟨n, false⟩) (hcomplete : n.isComplete = true)
    (hbad : .bad ∉ n.tokens) (hstring : ∀ s, .string s ∉ n.tokens) :
    Token.IsText n.tokens text.toList := by
  rcases hbuilt : Node.ofTokens (Token.lex (.ofString text)) with ⟨root, more⟩
  rw [ofMarks, hbuilt, mk.injEq, Bool.not_eq_false', List.isEmpty_iff] at h
  obtain ⟨rfl, rfl⟩ := h
  have htokens := Node.eq_of_ofTokens hbuilt hcomplete
  rw [List.append_nil] at htokens
  obtain ⟨cs, htext, hmarks⟩ :=
    Token.isText_of_lex (by rwa [htokens]) (by simpa only [htokens] using hstring)
  rw [Text.Marks.ofString, (List.map_injective_iff.mpr fun _ _ => Option.some.inj).eq_iff] at hmarks
  rwa [htokens, ← hmarks] at htext

end Document

end QueryPrep.Json
