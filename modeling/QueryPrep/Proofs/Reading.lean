import Mathlib.Data.List.TakeWhile
import QueryPrep.Text.Scan

/-!
# What readers share

A reader finds something or says what is wrong. What it finds together with another reader, or with
something done to its results, is known from what it finds by itself (`bind_eq_ok_iff`,
`map_eq_ok_iff`).

Readers of texts take the characters of one class off the front of what is left and go on behind
them. A run that is followed by something outside of its class is found again in the whole, so a
text can be cut at such a place in one way only (`append_inj_of_run`).

Trimming takes the blanks off both ends of a text and nothing else: a text without blanks at its
ends is found between any blanks (`trim_append`), and every text is what is left of it with blanks
around it (`exists_eq_append_trim`).

A printed text is taken apart into its lines at the line breaks (`List.splitOn`), and a line into
its words, which are what stands between blanks (`words`). A list of words is found in whatever way
they are spaced: what is on either side of a blank is taken apart by itself (`words_append_cons`),
and blanks in front and behind do not count.
-/

namespace QueryPrep

/-! ### Results -/

section

variable {ε ε' α β : Type} {x : Except ε α} {a : α} {b : β} {e : ε}

theorem toOption_eq_some_iff : x.toOption = some a ↔ x = .ok a := by
  cases x <;> simp [Except.toOption]

theorem bind_eq_ok_iff {f : α → Except ε β} : x >>= f = .ok b ↔ ∃ a, x = .ok a ∧ f a = .ok b := by
  cases x <;> simp [bind, Except.bind]

theorem toOption_bind (x : Except ε α) (f : α → Except ε β) :
    (x >>= f).toOption = x.toOption.bind fun a => (f a).toOption := by
  cases x <;> rfl

theorem map_eq_ok_iff {f : α → β} : x.map f = .ok b ↔ ∃ a, x = .ok a ∧ f a = b := by
  cases x <;> simp [Except.map]

theorem map_eq_error_iff {f : α → β} : x.map f = .error e ↔ x = .error e := by
  cases x <;> simp [Except.map]

theorem mapError_eq_ok_iff {f : ε → ε'} : x.mapError f = .ok a ↔ x = .ok a := by
  cases x <;> simp [Except.mapError]

end

namespace Text

/-! ### Runs -/

section

variable {α : Type*} {p : α → Bool} {a b x y : List α}

theorem takeWhile_eq_nil_of_head (h : ∀ c ∈ x.head?, p c = false) : x.takeWhile p = [] := by
  cases x with
  | nil => rfl
  | cons c x => rw [List.takeWhile_cons, h c rfl, if_neg Bool.false_ne_true]

theorem dropWhile_eq_self_of_head (h : ∀ c ∈ x.head?, p c = false) : x.dropWhile p = x := by
  cases x with
  | nil => rfl
  | cons c x => rw [List.dropWhile_cons, h c rfl, if_neg Bool.false_ne_true]

theorem takeWhile_run_append (ha : ∀ c ∈ a, p c = true) (hx : ∀ c ∈ x.head?, p c = false) :
    (a ++ x).takeWhile p = a := by
  rw [List.takeWhile_append_of_pos ha, takeWhile_eq_nil_of_head hx, List.append_nil]

theorem dropWhile_run_append (ha : ∀ c ∈ a, p c = true) (hx : ∀ c ∈ x.head?, p c = false) :
    (a ++ x).dropWhile p = x := by
  rw [List.dropWhile_append_of_pos ha, dropWhile_eq_self_of_head hx]

/-- **A run ends in one place only.** -/
theorem append_inj_of_run (ha : ∀ c ∈ a, p c = true) (hx : ∀ c ∈ x.head?, p c = false)
    (hb : ∀ c ∈ b, p c = true) (hy : ∀ c ∈ y.head?, p c = false) (h : a ++ x = b ++ y) :
    a = b ∧ x = y := by
  have hrun := congrArg (List.takeWhile p) h
  have hrest := congrArg (List.dropWhile p) h
  rw [takeWhile_run_append ha hx, takeWhile_run_append hb hy] at hrun
  rw [dropWhile_run_append ha hx, dropWhile_run_append hb hy] at hrest
  exact ⟨hrun, hrest⟩

end

/-! ### Blanks -/

/-- Nothing but blanks. -/
def IsBlankRun (cs : List Char) : Prop :=
  ∀ c ∈ cs, isBlank c = true

instance (cs : List Char) : Decidable (IsBlankRun cs) :=
  decidable_of_iff (cs.all isBlank = true) List.all_eq_true

/-- No blank anywhere. -/
def IsPlain (cs : List Char) : Prop :=
  ∀ c ∈ cs, isBlank c = false

instance (cs : List Char) : Decidable (IsPlain cs) :=
  decidable_of_iff (cs.all (!isBlank ·) = true) (by simp [IsPlain])

variable {a b cs : List Char} {c : Char}

theorem isBlank_of_isDigit (h : c.isDigit = true) : isBlank c = false := by
  simp only [Char.isDigit, Bool.and_eq_true, decide_eq_true_eq] at h
  have hlo : 48 ≤ c.toNat := h.1
  have hhi : c.toNat ≤ 57 := h.2
  simp only [isBlank, Bool.or_eq_false_iff, Bool.and_eq_false_iff, decide_eq_false_iff_not,
    beq_eq_false_iff_ne]
  omega

theorem isPlain_of_isDigit (h : ∀ c ∈ cs, c.isDigit = true) : IsPlain cs :=
  fun c hc => isBlank_of_isDigit (h c hc)

@[simp]
theorem isPlain_nil : IsPlain [] :=
  List.forall_mem_nil _

@[simp]
theorem isPlain_cons_iff : IsPlain (c :: cs) ↔ isBlank c = false ∧ IsPlain cs :=
  List.forall_mem_cons

@[simp]
theorem isPlain_append_iff : IsPlain (a ++ b) ↔ IsPlain a ∧ IsPlain b :=
  List.forall_mem_append

theorem IsBlankRun.reverse (h : IsBlankRun a) : IsBlankRun a.reverse :=
  fun c hc => h c (List.mem_reverse.mp hc)

theorem trimStart_append (ha : IsBlankRun a) (hcs : ∀ c ∈ cs.head?, isBlank c = false) :
    trimStart (a ++ cs) = cs :=
  dropWhile_run_append ha hcs

theorem exists_eq_append_trimStart (cs : List Char) : ∃ a, IsBlankRun a ∧ cs = a ++ trimStart cs :=
  ⟨cs.takeWhile isBlank, fun _ => List.mem_takeWhile_imp, List.takeWhile_append_dropWhile.symm⟩

/-- **What has no blank at its ends is found between blanks.** -/
theorem trim_append (ha : IsBlankRun a) (hb : IsBlankRun b)
    (hhead : ∀ c ∈ cs.head?, isBlank c = false) (hlast : ∀ c ∈ cs.getLast?, isBlank c = false) :
    trim (a ++ cs ++ b) = cs := by
  rcases cs with - | ⟨c, cs⟩
  · -- nothing but blanks is left over from either end
    have hall : IsBlankRun (a ++ b) := by
      intro c hc
      exact (List.mem_append.mp hc).elim (ha c) (hb c)
    have hstart : trimStart (a ++ b) = [] := by
      rw [← List.append_nil (a ++ b)]
      exact trimStart_append hall (by simp)
    rw [trim, List.append_nil, hstart]
    rfl
  · have hstart : trimStart (a ++ (c :: cs) ++ b) = (c :: cs) ++ b := by
      rw [List.append_assoc]
      exact trimStart_append ha (by simpa using hhead)
    rw [trim, hstart, List.reverse_append, trimStart_append hb.reverse, List.reverse_reverse]
    rwa [List.head?_reverse]

theorem IsPlain.trim_eq (h : IsPlain cs) : trim cs = cs := by
  have hends : trim ([] ++ cs ++ []) = cs := trim_append (by decide) (by decide)
    (fun c hc => h c (List.mem_of_mem_head? hc)) fun c hc => h c (List.mem_of_mem_getLast? hc)
  rwa [List.nil_append, List.append_nil] at hends

/-- A text is what is left of it, with blanks around it. -/
theorem exists_eq_append_trim (cs : List Char) :
    ∃ a b, IsBlankRun a ∧ IsBlankRun b ∧ cs = a ++ trim cs ++ b := by
  obtain ⟨a, ha, hstart⟩ := exists_eq_append_trimStart cs
  obtain ⟨b, hb, hend⟩ := exists_eq_append_trimStart (trimStart cs).reverse
  refine ⟨a, b.reverse, ha, hb.reverse, ?_⟩
  have htrim : trimStart cs = trim cs ++ b.reverse := by
    rw [trim, ← List.reverse_append, ← hend, List.reverse_reverse]
  rw [List.append_assoc, ← htrim]
  exact hstart

/-! ### Words -/

/-- The words of a text, which blanks stand between. -/
def words (cs : List Char) : List (List Char) :=
  (cs.splitOnP isBlank).filter (· ≠ [])

/-- One word and nothing else. -/
def IsWord (cs : List Char) : Prop :=
  cs ≠ [] ∧ IsPlain cs

theorem words_nil : words [] = [] := by
  simp [words, List.splitOnP_nil]

theorem IsWord.words_eq (h : IsWord cs) : words cs = [cs] := by
  rw [words, List.splitOnP_eq_singleton h.2]
  simp [h.1]

/-- **A blank parts words.** -/
theorem words_append_cons (hc : isBlank c = true) (a cs : List Char) :
    words (a ++ c :: cs) = words a ++ words cs := by
  rw [words, List.splitOnP_append_cons _ _ hc, List.filter_append]
  rfl

theorem words_cons (hc : isBlank c = true) (cs : List Char) : words (c :: cs) = words cs := by
  rw [← List.nil_append (c :: cs), words_append_cons hc, words_nil, List.nil_append]

theorem IsBlankRun.words_append (h : IsBlankRun b) (cs : List Char) :
    words (b ++ cs) = words cs := by
  induction b with
  | nil => rfl
  | cons c b ih =>
      obtain ⟨hc, hb⟩ := List.forall_mem_cons.mp h
      rw [List.cons_append, words_cons hc, ih hb]

theorem IsBlankRun.append_words (h : IsBlankRun b) (cs : List Char) :
    words (cs ++ b) = words cs := by
  cases b with
  | nil => rw [List.append_nil]
  | cons c b =>
      obtain ⟨hc, hb⟩ := List.forall_mem_cons.mp h
      have hnone := IsBlankRun.words_append hb []
      rw [List.append_nil, words_nil] at hnone
      rw [words_append_cons hc, hnone, List.append_nil]

/-! ### Lines -/

/-- **Lines that end with a line break are found again**, and what follows them. -/
theorem splitOn_flatMap_append {sep : Char} {lines : List (List Char)}
    (h : ∀ l ∈ lines, sep ∉ l) (rest : List Char) :
    (lines.flatMap (· ++ [sep]) ++ rest).splitOn sep = lines ++ rest.splitOn sep := by
  induction lines with
  | nil => rfl
  | cons l lines ih =>
      obtain ⟨hl, hlines⟩ := List.forall_mem_cons.mp h
      have hnot : ∀ c ∈ l, (c == sep) = false := by
        intro c hc
        rw [beq_eq_false_iff_ne]
        exact ne_of_mem_of_not_mem hc hl
      have hfirst := List.splitOnP_append_cons_of_forall_mem hnot sep (beq_self_eq_true sep)
        (lines.flatMap (· ++ [sep]) ++ rest)
      rw [List.flatMap_cons, List.append_assoc, List.append_assoc, List.singleton_append,
        List.splitOn_eq_splitOnP, hfirst, ← List.splitOn_eq_splitOnP, ih hlines, List.cons_append]

end Text

end QueryPrep
