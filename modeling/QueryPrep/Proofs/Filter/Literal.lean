import QueryPrep.Proofs.Filter.Clause

/-!
# String literals in a query

A reader of queries finds the string literals in a text by their quotes: a literal goes from one
quote to the next, and a backslash in it takes the character behind it as it is. A value is written
between quotes without any change, so the reader gets the value back only if there is nothing in the
value that it would take for more than it is.

Main result: if no quote and no backslash stands outside of the quoted values, then the literals of
a query are the quoted values of its rows, one for each and in their order, exactly as long as none
of these values holds a quote or a backslash (`literals_compile_iff`). A value with a quote in it
does end its literal early, and can add a clause of its own (`literals_compile_quote`).

The hard direction is that no value with a backslash in it is read back by chance, through
characters that stand behind its closing quote: a reader that has to find more backslashes than it
has passed never catches up (`not_literal_of_backslashes`).
-/

namespace QueryPrep

/-- A text without a quote and without a backslash. -/
def IsHarmless (cs : List Char) : Prop :=
  ∀ x ∈ cs, x ≠ '"' ∧ x ≠ '\\'

instance (cs : List Char) : Decidable (IsHarmless cs) :=
  List.decidableBAll (fun x => x ≠ '"' ∧ x ≠ '\\') cs

theorem isHarmless_append {a b : List Char} :
    IsHarmless (a ++ b) ↔ IsHarmless a ∧ IsHarmless b :=
  List.forall_mem_append

/-- Outside of the quoted value there is no quote and no backslash in what the row has to say. -/
structure FilterRow.IsFramed (row : FilterRow) : Prop where
  tag : ∀ s ∈ row.tag, IsHarmless s.toList
  operator : ∀ s ∈ row.operator, IsHarmless s.toList
  bare : (row.valueType.getD .standard).isBare → ∀ s ∈ row.value, IsHarmless s.toList

instance (row : FilterRow) : Decidable row.IsFramed :=
  decidable_of_iff ((∀ s ∈ row.tag, IsHarmless s.toList) ∧
      (∀ s ∈ row.operator, IsHarmless s.toList) ∧
      ((row.valueType.getD .standard).isBare → ∀ s ∈ row.value, IsHarmless s.toList))
    ⟨fun ⟨htag, hoperator, hbare⟩ => ⟨htag, hoperator, hbare⟩,
      fun ⟨htag, hoperator, hbare⟩ => ⟨htag, hoperator, hbare⟩⟩

theorem FilterRow.isHarmless_qualified (row : FilterRow) {tag : String}
    (h : IsHarmless tag.toList) : IsHarmless (row.qualified tag).toList := by
  rcases hscope : row.scope with - | scope
  · simpa [qualified, hscope] using h
  · simp only [qualified, hscope, Option.elim_some]
    have hnames : IsHarmless "resource.".toList ∧ IsHarmless "span.".toList ∧
        IsHarmless ".".toList := by decide
    cases scope with
    | intrinsic => exact h
    | resource =>
        simp only [TagScope.qualify, String.toList_append]
        exact isHarmless_append.mpr ⟨hnames.1, h⟩
    | span =>
        simp only [TagScope.qualify, String.toList_append]
        exact isHarmless_append.mpr ⟨hnames.2.1, h⟩
    | unscoped =>
        simp only [TagScope.qualify, String.toList_append]
        exact isHarmless_append.mpr ⟨hnames.2.2, h⟩

/-- The same of a clause. -/
structure Clause.IsFramed (c : Clause) : Prop where
  front : IsHarmless (c.tag.toList ++ c.operator.toList)
  bare : c.quoted = false → IsHarmless c.value.toList

theorem FilterRow.IsFramed.clause {row : FilterRow} {c : Clause} (h : row.IsFramed)
    (hc : row.clause? = some c) : c.IsFramed := by
  obtain ⟨tag, operator, value, htag, hoperator, hvalue, rfl⟩ := clause?_eq_some_iff.mp hc
  constructor
  · refine isHarmless_append.mpr ⟨row.isHarmless_qualified (h.tag tag ?_), h.operator operator ?_⟩
    · exact (given?_eq_some_iff.mp htag).1
    · exact (given?_eq_some_iff.mp hoperator).1
  · intro hbare
    exact h.bare (by simpa using hbare) value (given?_eq_some_iff.mp hvalue).1

namespace Query

/-! ### Reading literals -/

/-- The contents of the string literals of a text, in order; `opened` says that the text goes on
inside of one. A literal that is not closed makes the whole text unreadable. -/
def literals : (opened : Bool) → List Char → Option (List (List Char))
  | false, [] => some []
  | true, [] => none
  | false, c :: cs => literals (c = '"') cs
  | true, '"' :: cs => (literals false cs).map ([] :: ·)
  | true, '\\' :: c :: cs => (literals true cs).map (·.modifyHead (c :: ·))
  | true, c :: cs => (literals true cs).map (·.modifyHead (c :: ·))

variable {rest s : List Char} {ls : List (List Char)}

/-- Outside of literals nothing but a quote matters. -/
theorem literals_outside (h : IsHarmless s) :
    literals false (s ++ rest) = literals false rest := by
  induction s with
  | nil => rfl
  | cons c s ih =>
      have hc : (decide (c = '"')) = false := by simpa using (h c List.mem_cons_self).1
      rw [List.cons_append, literals, hc, ih fun x hx => h x (List.mem_cons_of_mem c hx)]

theorem literals_within_cons {c : Char} (hquote : c ≠ '"') (hslash : c ≠ '\\') :
    literals true (c :: rest) = (literals true rest).map (·.modifyHead (c :: ·)) := by
  rw [literals]
  · simpa using hquote
  · intro d cs h
    exact absurd h hslash

theorem literals_within_close :
    literals true ('"' :: rest) = (literals false rest).map ([] :: ·) := by
  rw [literals]

theorem literals_within_escape {c : Char} :
    literals true ('\\' :: c :: rest) = (literals true rest).map (·.modifyHead (c :: ·)) := by
  rw [literals]

/-- What a character that is taken adds to a literal that is known. -/
theorem of_modifyHead_cons {c d : Char} {o : Option (List (List Char))}
    (h : o.map (·.modifyHead (c :: ·)) = some ((d :: s) :: ls)) : c = d ∧ o = some (s :: ls) := by
  obtain ⟨ms, rfl, hms⟩ := Option.map_eq_some_iff.mp h
  rcases ms with - | ⟨m, ms⟩
  · simp at hms
  · simp only [List.modifyHead_cons, List.cons.injEq] at hms
    obtain ⟨⟨rfl, rfl⟩, rfl⟩ := hms
    exact ⟨rfl, rfl⟩

/-- How the first character of a literal was read: as itself, or behind a backslash. -/
theorem literals_within_cases {c d : Char}
    (h : literals true (c :: rest) = some ((d :: s) :: ls)) :
    (c ≠ '"' ∧ c ≠ '\\' ∧ c = d ∧ literals true rest = some (s :: ls)) ∨
      (c = '\\' ∧ ∃ later, rest = d :: later ∧ literals true later = some (s :: ls)) := by
  by_cases hquote : c = '"'
  · subst hquote
    obtain ⟨ms, -, hms⟩ := Option.map_eq_some_iff.mp (literals_within_close.symm.trans h)
    cases hms
  · by_cases hslash : c = '\\'
    · subst hslash
      rcases rest with - | ⟨e, later⟩
      · cases h
      · obtain ⟨rfl, hlater⟩ := of_modifyHead_cons (literals_within_escape.symm.trans h)
        exact .inr ⟨rfl, later, rfl, hlater⟩
    · have hcons := of_modifyHead_cons ((literals_within_cons hquote hslash).symm.trans h)
      exact .inl ⟨hquote, hslash, hcons⟩

/-- A literal whose content is longer by some backslashes than what stands in front of the quote. A
backslash of the content is two backslashes of the text, so with each one that is read the text
falls back further. -/
theorem not_literal_of_backslashes : (k : Nat) → (q : List Char) →
    literals true (q ++ '"' :: rest) ≠ some ((List.replicate (k + 1) '\\' ++ q) :: ls)
  | k, [] => by
      intro h
      rcases literals_within_cases h with ⟨hquote, -⟩ | ⟨hslash, -⟩
      · exact hquote rfl
      · exact absurd hslash (by decide)
  | k, [c] => by
      intro h
      rcases literals_within_cases h with ⟨-, hslash, heq, -⟩ | ⟨-, later, heq, -⟩
      · exact hslash heq
      · -- the backslash swallows the closing quote
        exact absurd (List.cons.inj heq).1 (by decide)
  | k, c :: d :: q => by
      intro h
      rcases literals_within_cases h with ⟨-, hslash, heq, -⟩ | ⟨rfl, later, heq, hlater⟩
      · exact hslash heq
      · obtain ⟨rfl, rfl⟩ := List.cons.inj heq
        refine not_literal_of_backslashes (k + 1) q (hlater.trans ?_)
        rw [List.replicate_succ', List.replicate_succ']
        simp

/-- **A value is read back if it is harmless and only then.** -/
theorem literals_within_eq_iff : literals true (s ++ '"' :: rest) = some (s :: ls) ↔
    IsHarmless s ∧ literals false rest = some ls := by
  induction s with
  | nil =>
      rw [List.nil_append, literals_within_close]
      simp [IsHarmless]
  | cons c s ih =>
      have hsplit : IsHarmless (c :: s) ↔ (c ≠ '"' ∧ c ≠ '\\') ∧ IsHarmless s :=
        List.forall_mem_cons
      rw [hsplit, and_assoc, ← ih]
      constructor
      · intro h
        rcases literals_within_cases h with ⟨hquote, hslash, -, htail⟩ | ⟨rfl, later, heq, hlater⟩
        · exact ⟨⟨hquote, hslash⟩, htail⟩
        · -- only a second backslash could stand for the first one, and then one is missing
          exfalso
          rcases s with - | ⟨d, s⟩
          · exact absurd (List.cons.inj heq).1 (by decide)
          · obtain ⟨rfl, rfl⟩ := List.cons.inj heq
            exact not_literal_of_backslashes 0 s hlater
      · rintro ⟨⟨hquote, hslash⟩, h⟩
        rw [List.cons_append, literals_within_cons hquote hslash, h]
        rfl

/-! ### The literals of a query -/

/-- The values of the complete rows that stand between quotes, in order. -/
def quotedValues (rows : List FilterRow) : List (List Char) :=
  ((clausesOf rows).filter (·.quoted)).map (·.value.toList)

/-- One clause: what stands in front of its value is passed over, and its value is read back if it
is harmless. -/
theorem literals_clause_iff {c : Clause} (hc : c.IsFramed) {vs : List (List Char)} :
    literals false (c.text ++ rest) = some ((if c.quoted then [c.value.toList] else []) ++ vs) ↔
      (c.quoted → IsHarmless c.value.toList) ∧ literals false rest = some vs := by
  rw [Clause.text, List.append_assoc, literals_outside hc.front]
  rcases hquoted : c.quoted with - | -
  · rw [Clause.valueText_of_bare hquoted, literals_outside (hc.bare hquoted)]
    simp
  · rw [Clause.valueText_of_quoted hquoted]
    simp only [List.cons_append, List.append_assoc, List.nil_append, if_true]
    rw [literals, decide_eq_true rfl, literals_within_eq_iff]
    simp

theorem literals_conjunction_iff {cs : List Clause} (hcs : ∀ c ∈ cs, c.IsFramed)
    (hrest : IsHarmless rest) :
    literals false (conjunction cs ++ rest) = some ((cs.filter (·.quoted)).map (·.value.toList)) ↔
      ∀ c ∈ cs, c.quoted → IsHarmless c.value.toList := by
  have hvalues : ∀ c cs, ((c :: cs : List Clause).filter (·.quoted)).map (·.value.toList) =
      (if c.quoted then [c.value.toList] else []) ++
        (cs.filter (·.quoted)).map (·.value.toList) := by
    intro c cs
    rcases hquoted : c.quoted with - | - <;> simp [hquoted]
  induction cs with
  | nil =>
      rw [conjunction_nil, List.nil_append, ← List.append_nil rest, literals_outside hrest]
      simp [literals]
  | cons c cs ih =>
      obtain ⟨hc, hcs⟩ := List.forall_mem_cons.mp hcs
      rw [List.forall_mem_cons, hvalues]
      refine Iff.trans ?_ (and_congr_right fun _ => ih hcs)
      rcases cs with - | ⟨d, cs⟩
      · rw [conjunction_singleton, literals_clause_iff hc, conjunction_nil, List.nil_append]
      · have hand : IsHarmless [' ', '&', '&', ' '] := by decide
        rw [conjunction_cons_cons, List.append_assoc, literals_clause_iff hc]
        exact and_congr_right fun _ => by rw [← literals_outside hand]; rfl

/-- **The literals of a query are the quoted values of its rows as long as these hold no quote and
no backslash**, and no longer: one value that does makes the reader find something else. -/
theorem literals_compile_iff {rows : List FilterRow}
    (h : ∀ row ∈ rows, row.IsComplete → row.IsFramed) :
    literals false (compile rows).toList = some (quotedValues rows) ↔
      ∀ s ∈ quotedValues rows, IsHarmless s := by
  have hclauses : ∀ c ∈ clausesOf rows, c.IsFramed := by
    intro c hc
    obtain ⟨row, hrow, hrender⟩ := List.mem_filterMap.mp hc
    exact (h row hrow (FilterRow.isComplete_iff.mpr ⟨c, hrender⟩)).clause hrender
  have hopen : IsHarmless ['\x7b'] := by decide
  have hclose : IsHarmless ['\x7d'] := by decide
  rw [toList_compile, List.cons_append, ← List.singleton_append, literals_outside hopen,
    quotedValues, literals_conjunction_iff hclauses hclose]
  simp only [List.forall_mem_map, List.mem_filter, and_imp]

/-- A value may hold all that stands between clauses, and a row that is no clause may hold
anything. -/
theorem literals_compile_iff_braces :
    let rows : List FilterRow := [
      (FilterRow.new "a" .dynamic).withTag "name" |>.withOperator "="
        |>.withValue "\x7d && \x7bx=1",
      (FilterRow.new "b" .dynamic).withTag "\"" |>.withValue "\\",
      (FilterRow.new "c" .static).withTag "duration" |>.withOperator ">" |>.withValue "100ms"
        |>.withValueType .duration,
      (FilterRow.new "d" .dynamic).withTag "env" |>.withOperator "!=" |>.withValue "é "
        |>.withScope .span]
    (∀ row ∈ rows, row.IsComplete → row.IsFramed) ∧
      literals false (compile rows).toList = some ["\x7d && \x7bx=1".toList, "é ".toList] := by
  intro rows
  have hframed : ∀ row ∈ rows, row.IsComplete → row.IsFramed := by decide
  exact ⟨hframed, (literals_compile_iff hframed).mpr (by decide)⟩

/-- **A quote in a value ends its literal**, and what stands behind it is read as a clause that
nobody has asked for. -/
theorem literals_compile_quote :
    let rows : List FilterRow := [(FilterRow.new "a" .dynamic).withTag "name" |>.withOperator "="
      |>.withValue "GET\" && status=\"500"]
    (∀ row ∈ rows, row.IsFramed) ∧
      quotedValues rows = ["GET\" && status=\"500".toList] ∧
      literals false (compile rows).toList = some ["GET".toList, "500".toList] ∧
      literals false (compile rows).toList ≠ some (quotedValues rows) := by
  decide

end Query

end QueryPrep
