import QueryPrep.Proofs.Filter.Clause
import QueryPrep.Proofs.Reading

/-!
# Queries determine their clauses

Clauses are written without any mark of where one part ends and the next begins, except for the
quotes and the ` && ` between two clauses. Still nothing is lost as long as the parts keep to
characters of their own: no operator sign in a tag, nothing else in an operator, no quote in a value
between quotes, and no `&` in a bare value. Tags and quoted values may hold ` && `, blanks and
braces.

Main result: two lists of rows with the same query have the same clauses, part by part
(`clausesOf_eq_of_compile_eq`). The query is cut from its front, and at each cut the text before it
is a run of characters of one class (`Clause.text_append_inj`).
-/

namespace QueryPrep

open Text (append_inj_of_run)

/-- The characters of operators. -/
def isOperatorSign (c : Char) : Bool :=
  c ∈ ['=', '!', '<', '>', '~']

namespace Clause

/-- The parts of a clause keep to characters of their own. -/
structure IsPlain (c : Clause) : Prop where
  tag : ∀ x ∈ c.tag.toList, isOperatorSign x = false ∧ x ≠ '"'
  operator : ∀ x ∈ c.operator.toList, isOperatorSign x = true
  quoted : c.quoted = true → ∀ x ∈ c.value.toList, x ≠ '"'
  bare : c.quoted = false → ∀ x ∈ c.value.toList, x ≠ '"' ∧ x ≠ '&'
  bare_head : c.quoted = false → ∀ x ∈ c.value.toList.head?, isOperatorSign x = false

instance (c : Clause) : Decidable c.IsPlain :=
  decidable_of_iff ((c.tag.toList.all fun x => !isOperatorSign x && x != '"') = true ∧
      c.operator.toList.all isOperatorSign = true ∧
      (c.quoted = true → (c.value.toList.all fun x => x != '"') = true) ∧
      (c.quoted = false → (c.value.toList.all fun x => x != '"' && x != '&') = true) ∧
      (c.quoted = false → (c.value.toList.head?.all fun x => !isOperatorSign x) = true)) <| by
    simp only [List.all_eq_true, Option.all_eq_true, Bool.and_eq_true, bne_iff_ne, ne_eq,
      Bool.not_eq_true']
    exact ⟨fun ⟨htag, hoperator, hquoted, hbare, hhead⟩ => ⟨htag, hoperator, hquoted, hbare, hhead⟩,
      fun ⟨htag, hoperator, hquoted, hbare, hhead⟩ => ⟨htag, hoperator, hquoted, hbare, hhead⟩⟩

/-- What may follow a clause before the query is closed: nothing, or more clauses. -/
def IsEnd (x : List Char) : Prop :=
  x = [] ∨ ∃ z, x = ' ' :: '&' :: '&' :: ' ' :: z

variable {c d : Clause} {x y : List Char}

theorem IsEnd.head (hx : IsEnd x) : ∀ a ∈ x.head?, a = ' ' := by
  rcases hx with rfl | ⟨z, rfl⟩ <;> simp

/-! ### Cutting values -/

/-- A bare value ends in front of the first `&`, less the blank that stands before it. -/
theorem bare_append_inj {v w : List Char} (hv : ∀ a ∈ v, a ≠ '&') (hw : ∀ a ∈ w, a ≠ '&')
    (hx : IsEnd x) (hy : IsEnd y) (h : v ++ x = w ++ y) : v = w ∧ x = y := by
  have hmem : ∀ {u z : List Char}, (∀ a ∈ u, a ≠ '&') → u ≠ w ++ ' ' :: '&' :: z ∧
      u ≠ v ++ ' ' :: '&' :: z := by
    intro u z hu
    constructor <;> rintro rfl <;> exact hu '&' (by simp) rfl
  rcases hx with rfl | ⟨z, rfl⟩
  · rcases hy with rfl | ⟨z', rfl⟩
    · simpa using h
    · exact absurd (by simpa using h) (hmem hv).1
  · rcases hy with rfl | ⟨z', rfl⟩
    · exact absurd (by simpa using h.symm) (hmem hw).2
    · have hrun : ∀ {u : List Char}, (∀ a ∈ u, a ≠ '&') →
          ∀ a ∈ u ++ [' '], decide (a ≠ '&') = true := by
        intro u hu a ha
        rcases List.mem_append.mp ha with ha | ha
        · simpa using hu a ha
        · simp_all
      -- the blank in front of the two signs still belongs to the run
      have hcut := append_inj_of_run (p := fun a => decide (a ≠ '&'))
        (a := v ++ [' ']) (b := w ++ [' ']) (x := '&' :: '&' :: ' ' :: z)
        (y := '&' :: '&' :: ' ' :: z') (hrun hv) (by simp) (hrun hw) (by simp) (by simpa using h)
      exact ⟨List.append_cancel_right hcut.1, congrArg (' ' :: ·) hcut.2⟩

/-- A quoted value is not taken for a bare one. -/
theorem quoted_append_ne_bare {v w : List Char} (hw : ∀ a ∈ w, a ≠ '"') (hy : IsEnd y) :
    '"' :: v ≠ w ++ y := by
  rcases w with - | ⟨a, w⟩
  · intro h
    have hquote := hy.head '"' (by rw [← List.nil_append y, ← h]; rfl)
    exact absurd hquote (by decide)
  · intro h
    exact hw a List.mem_cons_self (List.cons.inj h).1.symm

theorem valueText_append_inj (hc : c.IsPlain) (hd : d.IsPlain) (hx : IsEnd x) (hy : IsEnd y)
    (h : c.valueText ++ x = d.valueText ++ y) :
    c.quoted = d.quoted ∧ c.value.toList = d.value.toList ∧ x = y := by
  rcases hcq : c.quoted with - | - <;> rcases hdq : d.quoted with - | -
  · rw [valueText_of_bare hcq, valueText_of_bare hdq] at h
    exact ⟨rfl, bare_append_inj (fun a ha => (hc.bare hcq a ha).2)
      (fun a ha => (hd.bare hdq a ha).2) hx hy h⟩
  · rw [valueText_of_bare hcq, valueText_of_quoted hdq] at h
    exact absurd h.symm (quoted_append_ne_bare (fun a ha => (hc.bare hcq a ha).1) hx)
  · rw [valueText_of_quoted hcq, valueText_of_bare hdq] at h
    exact absurd h (quoted_append_ne_bare (fun a ha => (hd.bare hdq a ha).1) hy)
  · rw [valueText_of_quoted hcq, valueText_of_quoted hdq] at h
    simp only [List.cons_append, List.append_assoc, List.nil_append, List.cons.injEq,
      true_and] at h
    have hcut := append_inj_of_run (p := fun a => decide (a ≠ '"'))
      (fun a ha => by simpa using hc.quoted hcq a ha) (by simp)
      (fun a ha => by simpa using hd.quoted hdq a ha) (by simp) h
    exact ⟨rfl, hcut.1, (List.cons.inj hcut.2).2⟩

/-! ### Cutting clauses -/

theorem head_valueText (hc : c.IsPlain) (hx : IsEnd x) :
    ∀ a ∈ (c.valueText ++ x).head?, isOperatorSign a = false := by
  rcases hcq : c.quoted with - | -
  · rw [valueText_of_bare hcq, List.head?_append]
    rcases hhead : c.value.toList.head? with - | a
    · intro a ha
      rw [hx.head a (by simpa using ha)]
      decide
    · exact fun b hb => hc.bare_head hcq b (by simpa [hhead] using hb)
  · rw [valueText_of_quoted hcq]
    intro a ha
    obtain rfl : '"' = a := by simpa using ha
    decide

/-- **A clause is found again in front of what follows it.** -/
theorem text_append_inj (hc : c.IsPlain) (hd : d.IsPlain) (hco : c.operator.toList ≠ [])
    (hdo : d.operator.toList ≠ []) (hx : IsEnd x) (hy : IsEnd y)
    (h : c.text ++ x = d.text ++ y) : c = d ∧ x = y := by
  have hsign : ∀ {e : Clause} {z : List Char}, e.IsPlain → e.operator.toList ≠ [] →
      ∀ a ∈ (e.operator.toList ++ z).head?, (!isOperatorSign a) = false := by
    intro e z he hne a ha
    rw [List.head?_append_of_ne_nil _ hne] at ha
    rw [he.operator a (List.mem_of_mem_head? ha)]
    rfl
  rw [text, text, List.append_assoc, List.append_assoc, List.append_assoc, List.append_assoc] at h
  obtain ⟨htag, h⟩ := append_inj_of_run (p := fun a => !isOperatorSign a)
    (fun a ha => by simp [(hc.tag a ha).1]) (hsign hc hco)
    (fun a ha => by simp [(hd.tag a ha).1]) (hsign hd hdo) h
  obtain ⟨hoperator, h⟩ := append_inj_of_run hc.operator (head_valueText hc hx)
    hd.operator (head_valueText hd hy) h
  obtain ⟨hquoted, hvalue, hend⟩ := valueText_append_inj hc hd hx hy h
  refine ⟨?_, hend⟩
  cases c
  cases d
  simp_all [String.toList_inj]

end Clause

namespace Query

/-- What follows the first clause. -/
def afterFirst : List Clause → List Char
  | [] => []
  | c :: cs => ' ' :: '&' :: '&' :: ' ' :: conjunction (c :: cs)

theorem conjunction_cons (c : Clause) (cs : List Clause) :
    conjunction (c :: cs) = c.text ++ afterFirst cs := by
  cases cs with
  | nil => rw [conjunction_singleton, afterFirst, List.append_nil]
  | cons d cs => rw [conjunction_cons_cons, afterFirst]

theorem isEnd_afterFirst (cs : List Clause) : Clause.IsEnd (afterFirst cs) := by
  cases cs with
  | nil => exact .inl rfl
  | cons c cs => exact .inr ⟨conjunction (c :: cs), rfl⟩

theorem conjunction_ne_nil {c : Clause} {cs : List Clause} (h : c.operator.toList ≠ []) :
    conjunction (c :: cs) ≠ [] := by
  simp [conjunction_cons, Clause.text, h]

theorem conjunction_inj {cs ds : List Clause}
    (hcs : ∀ c ∈ cs, c.IsPlain ∧ c.operator.toList ≠ [])
    (hds : ∀ d ∈ ds, d.IsPlain ∧ d.operator.toList ≠ [])
    (h : conjunction cs = conjunction ds) : cs = ds := by
  induction cs generalizing ds with
  | nil =>
      rcases ds with - | ⟨d, ds⟩
      · rfl
      · exact absurd h.symm (conjunction_ne_nil (hds d List.mem_cons_self).2)
  | cons c cs ih =>
      obtain ⟨hc, hcs⟩ := List.forall_mem_cons.mp hcs
      rcases ds with - | ⟨d, ds⟩
      · exact absurd h (conjunction_ne_nil hc.2)
      · obtain ⟨hd, hlater⟩ := List.forall_mem_cons.mp hds
        rw [conjunction_cons, conjunction_cons] at h
        obtain ⟨rfl, hrest⟩ := Clause.text_append_inj hc.1 hd.1 hc.2 hd.2 (isEnd_afterFirst cs)
          (isEnd_afterFirst ds) h
        congr 1
        rcases cs with - | ⟨c', cs⟩ <;> rcases ds with - | ⟨d', ds⟩
        · rfl
        · cases hrest
        · cases hrest
        · simp only [afterFirst, List.cons.injEq, true_and] at hrest
          exact ih hcs hlater hrest

/-- **The query of plain rows determines their clauses**: which tags are compared with what, by
which operators, in which order, and whether as texts. -/
theorem clausesOf_eq_of_compile_eq {rows rows' : List FilterRow}
    (hrows : ∀ c ∈ clausesOf rows, c.IsPlain) (hrows' : ∀ c ∈ clausesOf rows', c.IsPlain)
    (h : compile rows = compile rows') : clausesOf rows = clausesOf rows' := by
  have hoperator : ∀ {rows : List FilterRow}, ∀ c ∈ clausesOf rows, c.operator.toList ≠ [] := by
    intro rows c hc
    obtain ⟨row, -, hclause⟩ := List.mem_filterMap.mp hc
    exact FilterRow.operator_ne_nil hclause
  have htext := congrArg String.toList h
  rw [toList_compile, toList_compile, List.cons_append, List.cons_append] at htext
  exact conjunction_inj (fun c hc => ⟨hrows c hc, hoperator c hc⟩)
    (fun c hc => ⟨hrows' c hc, hoperator c hc⟩)
    (List.append_cancel_right (List.cons.inj htext).2)

/-- Where the namespace comes from does not show, and neither do rows that are no clauses. -/
theorem clausesOf_eq_of_compile_eq_scoped :
    let rows : List FilterRow := [
      (FilterRow.new "a" .static).withTag "svc && x" |>.withOperator "=~"
        |>.withValue "\x7d && b=1" |>.withScope .span,
      (FilterRow.new "b" .dynamic).withTag "n" |>.withOperator ">=" |>.withValue "3 "
        |>.withValueType .integer]
    let rows' : List FilterRow := [
      (FilterRow.new "c" .dynamic).withTag "span.svc && x" |>.withOperator "=~"
        |>.withValue "\x7d && b=1" |>.withValueType .string,
      (FilterRow.new "d" .dynamic).withTag "open" |>.withOperator "=",
      (FilterRow.new "e" .static).withTag "n" |>.withOperator ">=" |>.withValue "3 "
        |>.withValueType .other |>.withScope .intrinsic]
    compile rows = compile rows' ∧ clausesOf rows = clausesOf rows' := by
  intro rows rows'
  have hquery : compile rows = compile rows' := by decide
  exact ⟨hquery, clausesOf_eq_of_compile_eq (by decide) (by decide) hquery⟩

end Query

end QueryPrep
