import QueryPrep.Proofs.Json.Numeral
import QueryPrep.Proofs.Reading
import QueryPrep.Time.Duration

/-!
# What is a duration

A duration is written in one of two forms (`Denotes`): a bare number, or components, each of them
digits and the name of a unit with nothing in between. A component ends where the digits of the next
one begin, so a text is made of components in one way only (`Part.texts_inj`), and what it denotes
is one number (`Denotes.unique`).

Main results: what is read as a duration is exactly what denotes a number of milliseconds in range,
with blanks around it (`parse_accepts`); and an error tells whether a text is malformed or out of
range, except that a text with an amount that is out of range by itself is called malformed
(`tellsCause_iff`).
-/

namespace QueryPrep

open QueryPrep.Json.Numeral (IsDigits)
open QueryPrep.Text (IsBlankRun isBlank isBlank_of_isDigit)

namespace TimeUnit

theorem name_ne_nil (u : TimeUnit) : u.name ≠ [] := by
  cases u <;> decide

theorem of_mem_name (u : TimeUnit) : ∀ c ∈ u.name, c.isDigit = false ∧ isBlank c = false := by
  have hall : u.name.all (fun c => !c.isDigit && !isBlank c) = true := by cases u <;> rfl
  intro c hc
  simpa using List.all_eq_true.mp hall c hc

theorem name_inj {u v : TimeUnit} (h : u.name = v.name) : u = v := by
  cases u <;> cases v <;> first | rfl | cases h

/-- **The name of a unit is read as this unit**, unless it is that of minutes and is followed by
what makes it the one of milliseconds. -/
theorem take?_name_append (u : TimeUnit) {rest : List Char} (h : ∀ c ∈ rest.head?, c ≠ 's') :
    take? (u.name ++ rest) = some (u, rest) := by
  rcases rest with - | ⟨c, rest⟩
  · cases u <;> rfl
  · -- no other name is the beginning of one that is tried before it
    have hc : ¬ 's' = c := fun heq => h c rfl heq.symm
    cases u <;> simp [take?, name, hc]

end TimeUnit

namespace Duration

/-! ### The notation -/

/-- A component as it is written: the digits of an amount, with zeros in front of them as one likes,
and a unit. -/
structure Part where
  digits : List Char
  unit : TimeUnit
  isDigits : IsDigits digits

namespace Part

def amount (p : Part) : Nat :=
  Decimal.value p.digits

def millis (p : Part) : Nat :=
  p.amount * p.unit.millis

def text (p : Part) : List Char :=
  p.digits ++ p.unit.name

def component (p : Part) : Component :=
  ⟨p.amount, p.unit⟩

/-- The text of parts, with nothing between them. -/
def texts (ps : List Part) : List Char :=
  ps.flatMap text

/-- The milliseconds of parts together. -/
def sum : List Part → Nat
  | [] => 0
  | p :: ps => p.millis + sum ps

variable {p : Part} {ps qs : List Part} {cs rest : List Char}

theorem texts_append (ps qs : List Part) : texts (ps ++ qs) = texts ps ++ texts qs :=
  List.flatMap_append

theorem sum_append_cons (ps : List Part) (p : Part) (qs : List Part) :
    sum (ps ++ p :: qs) = sum ps + p.millis + sum qs := by
  induction ps with
  | nil => simp [sum]
  | cons q ps ih => simp only [List.cons_append, sum, ih, Nat.add_assoc]

/-- The order of parts does not matter. -/
theorem sum_eq_of_perm (h : ps.Perm qs) : sum ps = sum qs := by
  induction h with
  | nil => rfl
  | cons p _ ih => rw [sum, sum, ih]
  | swap p q ps => simp only [sum, Nat.add_left_comm]
  | trans _ _ ih ih' => exact ih.trans ih'

theorem amount_le_sum (hp : p ∈ ps) : p.amount ≤ sum ps := by
  have hunit : 1 ≤ p.unit.millis := by cases p.unit <;> decide
  obtain ⟨qs, rs, rfl⟩ := List.append_of_mem hp
  calc p.amount ≤ p.amount * p.unit.millis := Nat.le_mul_of_pos_right _ hunit
    _ ≤ sum qs + p.millis + sum rs := by rw [millis]; omega
    _ = sum (qs ++ p :: rs) := (sum_append_cons qs p rs).symm

/-! ### Where a part ends -/

/-- Parts begin with a digit. -/
theorem head_texts (ps : List Part) : ∀ c ∈ (texts ps).head?, c.isDigit = true := by
  intro c hc
  rcases ps with - | ⟨p, ps⟩
  · cases hc
  · obtain ⟨hne, hdigits⟩ := p.isDigits
    rw [texts, List.flatMap_cons, text, List.append_assoc, List.head?_append_of_ne_nil _ hne] at hc
    exact hdigits c (List.mem_of_mem_head? hc)

/-- Parts end with the name of a unit. -/
theorem getLast_texts (ps : List Part) :
    ∀ c ∈ (texts ps).getLast?, c.isDigit = false ∧ isBlank c = false := by
  intro c hc
  rcases List.eq_nil_or_concat' ps with rfl | ⟨qs, p, rfl⟩
  · cases hc
  · have hsplit : texts (qs ++ [p]) = (texts qs ++ p.digits) ++ p.unit.name := by
      simp [texts, text]
    rw [hsplit, List.getLast?_append_of_ne_nil _ p.unit.name_ne_nil] at hc
    exact p.unit.of_mem_name c (List.mem_of_getLast? hc)

theorem not_blank_of_mem_texts {c : Char} (hc : c ∈ texts ps) : isBlank c = false := by
  obtain ⟨p, -, hc⟩ := List.mem_flatMap.mp hc
  rcases List.mem_append.mp hc with hc | hc
  · exact isBlank_of_isDigit (p.isDigits.2 c hc)
  · exact (p.unit.of_mem_name c hc).2

/-- The name of a unit is the run of other characters between digits. -/
theorem name_run (u : TimeUnit) : ∀ c ∈ u.name, (!c.isDigit) = true := by
  intro c hc
  rw [(u.of_mem_name c hc).1]
  rfl

theorem head_name_append (u : TimeUnit) (rest : List Char) :
    ∀ c ∈ (u.name ++ rest).head?, c.isDigit = false := by
  intro c hc
  rw [List.head?_append_of_ne_nil _ u.name_ne_nil] at hc
  exact (u.of_mem_name c (List.mem_of_mem_head? hc)).1

/-- **A text is made of parts in one way only**; in particular the name of a unit is not a shorter
one with something behind it. -/
theorem texts_inj (h : texts ps = texts qs) : ps = qs := by
  induction ps generalizing qs with
  | nil =>
      rcases qs with - | ⟨q, qs⟩
      · rfl
      · exact absurd (List.append_eq_nil_iff.mp (List.append_eq_nil_iff.mp h.symm).1).1 q.isDigits.1
  | cons p ps ih =>
      rcases qs with - | ⟨q, qs⟩
      · exact absurd (List.append_eq_nil_iff.mp (List.append_eq_nil_iff.mp h).1).1 p.isDigits.1
      · -- the digits, and then the name, are as many characters of their kind as there are
        have hsplit :
            p.digits ++ (p.unit.name ++ texts ps) = q.digits ++ (q.unit.name ++ texts qs) := by
          simpa [texts, text] using h
        obtain ⟨hdigits, hrest⟩ := Text.append_inj_of_run p.isDigits.2 (head_name_append _ _)
          q.isDigits.2 (head_name_append _ _) hsplit
        have hends : ∀ rs : List Part, ∀ c ∈ (texts rs).head?, (!c.isDigit) = false := by
          intro rs c hc
          rw [head_texts rs c hc]
          rfl
        obtain ⟨hname, htexts⟩ := Text.append_inj_of_run (name_run _) (hends ps) (name_run _)
          (hends qs) hrest
        obtain ⟨ds, u, hds⟩ := p
        obtain ⟨es, v, hes⟩ := q
        obtain rfl : ds = es := hdigits
        obtain rfl := TimeUnit.name_inj hname
        rw [ih htexts]

end Part

/-- A text denotes a number of milliseconds: it is the number, or it is made of parts, at least one,
and the number is what they are together. -/
inductive Denotes : List Char → Nat → Prop where
  | number {ds : List Char} (h : IsDigits ds) : Denotes ds (Decimal.value ds)
  | parts {ps : List Part} (h : ps ≠ []) : Denotes (Part.texts ps) (Part.sum ps)

open QueryPrep.Duration.Part

variable {ps qs : List Part} {cs : List Char} {n m : Nat} {text : String}

/-- Parts are more than digits. -/
theorem not_isDigits_texts (ps : List Part) : ¬ IsDigits (texts ps) := by
  rintro ⟨hne, hdigits⟩
  have hlast := getLast_texts ps _ (List.getLast?_eq_some_getLast hne)
  rw [hdigits _ (List.getLast_mem hne)] at hlast
  exact absurd hlast.1 (by decide)

theorem denotes_texts_iff : Denotes (texts ps) n ↔ ps ≠ [] ∧ n = sum ps := by
  constructor
  · generalize hcs : texts ps = cs
    rintro (hds | hqs)
    · exact absurd (hcs ▸ hds) (not_isDigits_texts ps)
    · obtain rfl := texts_inj hcs
      exact ⟨hqs, rfl⟩
  · rintro ⟨hne, rfl⟩
    exact .parts hne

/-- **A text denotes one number.** -/
theorem Denotes.unique (h : Denotes cs n) (h' : Denotes cs m) : n = m := by
  cases h with
  | number hds =>
      generalize hcs : cs = es at h'
      cases h' with
      | number => rfl
      | parts => exact absurd (hcs ▸ hds) (not_isDigits_texts _)
  | parts => exact (denotes_texts_iff.mp h').2.symm

/-- Neither form begins or ends with a blank. -/
theorem Denotes.ends (h : Denotes cs n) : (∀ c ∈ cs.head?, isBlank c = false) ∧
    ∀ c ∈ cs.getLast?, isBlank c = false := by
  cases h with
  | number hds =>
      exact ⟨fun c hc => isBlank_of_isDigit (hds.2 c (List.mem_of_mem_head? hc)),
        fun c hc => isBlank_of_isDigit (hds.2 c (List.mem_of_getLast? hc))⟩
  | @parts ps _ =>
      exact ⟨fun c hc => isBlank_of_isDigit (head_texts ps c hc),
        fun c hc => (getLast_texts ps c hc).2⟩

/-! ### Reading components -/

theorem inRange?_of_le (h : n ≤ Millis.greatest) : inRange? n = some n :=
  if_pos h

theorem inRange?_of_lt (h : Millis.greatest < n) : inRange? n = none :=
  if_neg (Int.not_le.mpr h)

/-- Some part of the text has an amount that is out of range by itself. -/
def Oversized (cs : List Char) : Prop :=
  ∃ ps, cs = texts ps ∧ ∃ p ∈ ps, Millis.greatest < p.amount

theorem component?_of_span {digits rest : List Char} (h : Decimal.span cs = (digits, rest))
    (hne : digits ≠ []) : component? cs = (inRange? (Decimal.value digits)).bind fun amount =>
      (TimeUnit.take? rest).bind fun u => some (⟨amount, u.1⟩, u.2) := by
  rw [component?, h]
  rcases digits with - | ⟨d, ds⟩
  · exact absurd rfl hne
  · rfl

/-- A part is read off the front of a text, up to where the next one begins. -/
theorem component?_texts_cons (p : Part) (ps : List Part) : component? (texts (p :: ps)) =
    if Millis.greatest < p.amount then none else some (p.component, texts ps) := by
  have hsplit : texts (p :: ps) = p.digits ++ (p.unit.name ++ texts ps) := by
    simp [texts, Part.text]
  have hspan : Decimal.span (texts (p :: ps)) = (p.digits, p.unit.name ++ texts ps) := by
    rw [hsplit, Decimal.span, Text.takeWhile_run_append p.isDigits.2 (head_name_append _ _),
      Text.dropWhile_run_append p.isDigits.2 (head_name_append _ _)]
  -- a digit is behind the name, hence not what would make minutes milliseconds
  have hunit : TimeUnit.take? (p.unit.name ++ texts ps) = some (p.unit, texts ps) := by
    apply TimeUnit.take?_name_append
    rintro c hc rfl
    exact absurd (head_texts ps 's' hc) (by decide)
  rw [component?_of_span hspan p.isDigits.1, hunit, ← amount]
  by_cases hp : Millis.greatest < p.amount
  · rw [if_pos hp, inRange?_of_lt hp]
    rfl
  · rw [if_neg hp, inRange?_of_le (Int.not_lt.mp hp)]
    rfl

theorem components?_of_some {c : Component} {rest : List Char}
    (h : component? cs = some (c, rest)) : components? cs = (components? rest).map (c :: ·) := by
  have hne : cs ≠ [] := by
    rintro rfl
    cases h
  rw [components?, if_neg hne]
  split
  · rename_i hnone
    cases hnone.symm.trans h
  · rename_i hsome
    cases hsome.symm.trans h
    rfl

theorem components?_of_none (hne : cs ≠ []) (h : component? cs = none) : components? cs = none := by
  rw [components?, if_neg hne]
  split
  · rfl
  · rename_i hsome
    cases hsome.symm.trans h

theorem components?_texts : components? (texts ps) =
    if ∃ p ∈ ps, Millis.greatest < p.amount then none else some (ps.map component) := by
  induction ps with
  | nil =>
      rw [components?]
      simp [texts]
  | cons p ps ih =>
      have hcomponent := component?_texts_cons p ps
      simp only [List.exists_mem_cons_iff]
      by_cases hp : Millis.greatest < p.amount
      · have hne : texts (p :: ps) ≠ texts [] := fun hnil => List.cons_ne_nil _ _ (texts_inj hnil)
        rw [if_pos hp] at hcomponent
        rw [components?_of_none hne hcomponent, if_pos (.inl hp)]
      · rw [if_neg hp] at hcomponent
        rw [components?_of_some hcomponent, ih]
        by_cases hps : ∃ p ∈ ps, Millis.greatest < p.amount
        · rw [if_pos hps, if_pos (.inr hps)]
          rfl
        · rw [if_neg hps, if_neg (not_or.mpr ⟨hp, hps⟩)]
          rfl

/-- What is read as components is made of parts. -/
theorem exists_eq_texts {cs : List Char} {l : List Component} (h : components? cs = some l) :
    ∃ ps, cs = texts ps := by
  induction cs using components?.induct generalizing l with
  | case1 => exact ⟨[], rfl⟩
  | case2 cs hne hnone =>
      rw [components?_of_none hne hnone] at h
      contradiction
  | case3 cs hne c rest hc ih =>
      rw [components?_of_some hc] at h
      obtain ⟨l', hl', -⟩ := Option.map_eq_some_iff.mp h
      obtain ⟨ps, hps⟩ := ih hl'
      obtain ⟨hdigits, -, -, hcs⟩ := component?_eq_some hc
      have hrun : ∀ d ∈ (Decimal.span cs).1, d.isDigit = true :=
        fun d (hd : d ∈ cs.takeWhile Char.isDigit) => List.mem_takeWhile_imp hd
      refine ⟨⟨(Decimal.span cs).1, c.unit, hdigits, hrun⟩ :: ps, ?_⟩
      rw [texts, List.flatMap_cons, ← texts, ← hps]
      exact hcs

/-! ### Adding up -/

theorem inRange?_add (n m : Nat) :
    ((inRange? n).bind fun k => inRange? (k + m)) = inRange? (n + m) := by
  by_cases hn : (n : Int) ≤ Millis.greatest
  · rw [inRange?_of_le hn]
    rfl
  · -- then the sum is out of range as well
    rw [inRange?_of_lt (Int.not_le.mp hn), inRange?_of_lt (by omega)]
    rfl

/-- **Components add up to their sum if that is in range**: nothing that is added, and no sum on the
way, is larger. -/
theorem total?_component (ps : List Part) : total? (ps.map component) = inRange? (sum ps) := by
  -- by induction on what is still to be added to a number in range
  have hfrom : ∀ m : Nat, m ≤ Millis.greatest →
      (ps.map component).foldlM (fun sum c => do inRange? ((← inRange? c.millis) + sum)) m =
        inRange? (sum ps + m) := by
    induction ps with
    | nil =>
        intro m hm
        rw [inRange?_of_le (by simpa [sum] using hm)]
        simp [sum]
    | cons p ps ih =>
        intro m hm
        have hsum : sum (p :: ps) + m = sum ps + (p.millis + m) := by
          rw [sum]
          omega
        rw [List.map_cons, List.foldlM_cons, hsum]
        have hstep : (do inRange? ((← inRange? p.component.millis) + m)) =
            inRange? (p.millis + m) := inRange?_add p.millis m
        rw [hstep]
        by_cases hle : ((p.millis + m : Nat) : Int) ≤ Millis.greatest
        · rw [inRange?_of_le hle]
          exact ih _ hle
        · rw [inRange?_of_lt (Int.not_le.mp hle), inRange?_of_lt (by omega)]
          rfl
  exact hfrom 0 (by decide)

theorem readNat?_eq_some_iff :
    Decimal.readNat? cs = some n ↔ IsDigits cs ∧ n = Decimal.value cs := by
  have hdigits : (cs.isEmpty || !cs.all Char.isDigit) = true ↔ ¬ IsDigits cs := by
    simp only [IsDigits, Bool.or_eq_true, List.isEmpty_iff, Bool.not_eq_true', List.all_eq_false,
      Bool.not_eq_true, not_and, Classical.not_forall]
    grind
  rw [Decimal.readNat?]
  by_cases h : IsDigits cs
  · rw [if_neg (fun hnot => hdigits.mp hnot h)]
    simp [h, eq_comm]
  · rw [if_pos (hdigits.mpr h)]
    simp [h]

theorem value?_of_isDigits (h : IsDigits cs) :
    value? cs = some (inRange? (Decimal.value cs)) := by
  rw [value?, readNat?_eq_some_iff.mpr ⟨h, rfl⟩]

theorem value?_of_not_isDigits (h : ¬ IsDigits cs) :
    value? cs = if cs.isEmpty then none else (components? cs).map total? := by
  have hnone : Decimal.readNat? cs = none := by
    rw [Option.eq_none_iff_forall_ne_some]
    exact fun n hn => h (readNat?_eq_some_iff.mp hn).1
  rw [value?, hnone]

theorem value?_texts (hne : ps ≠ []) : value? (texts ps) =
    if ∃ p ∈ ps, Millis.greatest < p.amount then none else some (inRange? (sum ps)) := by
  have hempty : (texts ps).isEmpty = false := by
    rw [List.isEmpty_eq_false_iff]
    exact fun h => hne (texts_inj h)
  rw [value?_of_not_isDigits (not_isDigits_texts ps), hempty, if_neg Bool.false_ne_true,
    components?_texts]
  split
  · rfl
  · exact congrArg some (total?_component ps)

theorem oversized_texts_iff : Oversized (texts ps) ↔ ∃ p ∈ ps, Millis.greatest < p.amount := by
  constructor
  · rintro ⟨qs, h, hqs⟩
    rwa [texts_inj h]
  · exact fun h => ⟨ps, rfl, h⟩

/-- What denotes nothing is malformed. -/
theorem exists_denotes_of_value? (h : value? cs ≠ none) : ∃ n, Denotes cs n := by
  by_cases hds : IsDigits cs
  · exact ⟨_, .number hds⟩
  · rw [value?_of_not_isDigits hds] at h
    split at h
    · exact absurd rfl h
    · rename_i hempty
      have hsome : components? cs ≠ none := fun hnone => h (Option.map_eq_none_iff.mpr hnone)
      obtain ⟨l, hl⟩ := Option.ne_none_iff_exists'.mp hsome
      obtain ⟨ps, rfl⟩ := exists_eq_texts hl
      refine ⟨_, .parts ?_⟩
      rintro rfl
      exact hempty rfl

/-- **A text is read as what it denotes**, unless it is oversized. -/
theorem value?_of_denotes (h : Denotes cs n) :
    (Oversized cs → value? cs = none) ∧ (¬ Oversized cs → value? cs = some (inRange? n)) := by
  cases h with
  | number hds =>
      refine ⟨?_, fun _ => value?_of_isDigits hds⟩
      rintro ⟨ps, rfl, -⟩
      exact absurd hds (not_isDigits_texts ps)
  | parts hne =>
      rw [value?_texts hne, oversized_texts_iff]
      exact ⟨fun h => if_pos h, fun h => if_neg h⟩

theorem value?_eq_none_iff : value? cs = none ↔ (∀ n, ¬ Denotes cs n) ∨ Oversized cs := by
  constructor
  · intro h
    by_cases hdenotes : ∃ n, Denotes cs n
    · obtain ⟨n, hn⟩ := hdenotes
      refine .inr (Classical.byContradiction fun hsize => ?_)
      cases h.symm.trans ((value?_of_denotes hn).2 hsize)
    · exact .inl (not_exists.mp hdenotes)
  · rintro (h | h)
    · by_contra hsome
      obtain ⟨n, hn⟩ := exists_denotes_of_value? hsome
      exact h n hn
    · obtain ⟨ps, rfl, p, hp, -⟩ := id h
      exact (value?_of_denotes (.parts (List.ne_nil_of_mem hp))).1 h

/-- A number in range does not come from an amount out of range. -/
theorem Denotes.not_oversized (h : Denotes cs n) (hn : n ≤ Millis.greatest) : ¬ Oversized cs := by
  rintro ⟨ps, rfl, p, hp, hamount⟩
  obtain ⟨-, rfl⟩ := denotes_texts_iff.mp h
  have hle : (p.amount : Int) ≤ sum ps := Int.ofNat_le.mpr (amount_le_sum hp)
  omega

/-! ### Reading durations -/

/-- A text states a number of milliseconds if what stands between the blanks at its ends denotes
it. -/
def States (text : String) (n : Nat) : Prop :=
  ∃ a cs b, text.toList = a ++ cs ++ b ∧ IsBlankRun a ∧ IsBlankRun b ∧ Denotes cs n

theorem states_iff : States text n ↔ Denotes (Text.trim text.toList) n := by
  constructor
  · rintro ⟨a, cs, b, htext, ha, hb, h⟩
    rwa [htext, Text.trim_append ha hb h.ends.1 h.ends.2]
  · intro h
    obtain ⟨a, b, ha, hb, htext⟩ := Text.exists_eq_append_trim text.toList
    exact ⟨a, _, b, htext, ha, hb, h⟩

/-- What a text says decides what is read, unless an amount is out of range by itself. -/
theorem parse_of_states (h : States text n) (hsize : ¬ Oversized (Text.trim text.toList)) :
    parse text = if n ≤ Millis.greatest then .ok n else .error (.outOfRange text) := by
  rw [parse, (value?_of_denotes (states_iff.mp h)).2 hsize, inRange?]
  by_cases hn : (n : Int) ≤ Millis.greatest
  · rw [if_pos hn, if_pos hn]
  · rw [if_neg hn, if_neg hn]

theorem parse_eq_badDuration_iff : parse text = .error (.badDuration text) ↔
    (∀ n, ¬ States text n) ∨ Oversized (Text.trim text.toList) := by
  simp only [states_iff, ← value?_eq_none_iff]
  rw [parse]
  rcases value? (Text.trim text.toList) with - | - | m
  · simp
  · simp
  · simp

theorem parse_eq_ok_iff : parse text = .ok n ↔ States text n ∧ n ≤ Millis.greatest := by
  constructor
  · intro h
    -- what is not malformed states something and is not oversized
    have hbad : parse text ≠ .error (.badDuration text) := by
      rw [h]
      exact nofun
    rw [ne_eq, parse_eq_badDuration_iff, not_or, not_forall_not] at hbad
    obtain ⟨⟨m, hstates⟩, hsize⟩ := hbad
    rw [parse_of_states hstates hsize] at h
    split at h
    · rename_i hle
      obtain rfl := Except.ok.inj h
      exact ⟨hstates, hle⟩
    · contradiction
  · rintro ⟨h, hle⟩
    rw [parse_of_states h ((states_iff.mp h).not_oversized hle), if_pos hle]

theorem parse_texts_eq_ok_iff (h : Text.trim text.toList = texts ps) :
    parse text = .ok n ↔ (ps ≠ [] ∧ n = sum ps) ∧ n ≤ Millis.greatest := by
  rw [parse_eq_ok_iff, states_iff, h, denotes_texts_iff]

/-- Between parts, and behind them, there is no number without a unit; one in front of the digits of
a part is the same as more digits. -/
theorem not_denotes_of_unitless {ds b b' : List Char} (hds : IsDigits ds) (hb : IsBlankRun b)
    (hb' : IsBlankRun b') (hne : ps ++ qs ≠ []) (hqs : qs ≠ [] → b' ≠ []) :
    ¬ Denotes (texts ps ++ b ++ ds ++ b' ++ texts qs) n := by
  generalize hcs : texts ps ++ b ++ ds ++ b' ++ texts qs = cs
  rintro (hes | @⟨rs, -⟩)
  · -- a part has a name in it, which is not made of digits
    obtain ⟨p, hp⟩ := List.exists_mem_of_ne_nil _ hne
    obtain ⟨c, hc⟩ := List.exists_mem_of_ne_nil _ p.unit.name_ne_nil
    have hmem : c ∈ texts (ps ++ qs) :=
      List.mem_flatMap.mpr ⟨p, hp, List.mem_append_right _ hc⟩
    have hdigit := hes.2 c
    rw [texts_append] at hmem
    rw [(p.unit.of_mem_name c hc).1] at hdigit
    simp only [← hcs, List.mem_append] at hdigit hmem
    tauto
  · -- parts have no blanks in them and end with a name
    have hblank : ∀ a, IsBlankRun a → (∀ c ∈ a, c ∈ texts rs) → a = [] := by
      intro a ha hmem
      rw [List.eq_nil_iff_forall_not_mem]
      intro c hc
      have hnot := not_blank_of_mem_texts (hmem c hc)
      rw [ha c hc] at hnot
      contradiction
    obtain rfl := hblank b hb (by simp +contextual [← hcs])
    obtain rfl := hblank b' hb' (by simp +contextual [← hcs])
    obtain rfl : qs = [] := by
      by_contra hqs'
      exact hqs hqs' rfl
    obtain ⟨hne', hdigits⟩ := hds
    have hlast := getLast_texts rs (ds.getLast hne')
    rw [← hcs] at hlast
    simp [texts, List.getLast?_append, List.getLast?_eq_some_getLast hne',
      hdigits _ (List.getLast_mem hne')] at hlast

/-! ### What is accepted -/

/-- **A duration is a number of milliseconds in range, in one of its two forms and with blanks
around it.** Its parts may stand in any order and repeat a unit, `ms` is the name of one unit, and a
number without a unit does not go with parts. -/
theorem parse_accepts (text : String) :
    (∀ n : Nat, parse text = .ok n ↔
      ∃ a cs b, text.toList = a ++ cs ++ b ∧ IsBlankRun a ∧ IsBlankRun b ∧ Denotes cs n ∧
        n ≤ Millis.greatest) ∧
    (∀ ps, ps ≠ [] → Text.trim text.toList = texts ps →
      ∀ n : Nat, parse text = .ok n ↔ n = sum ps ∧ n ≤ Millis.greatest) ∧
    (∀ ps qs text', ps.Perm qs → Text.trim text.toList = texts ps →
      Text.trim text'.toList = texts qs → ∀ n : Nat, parse text = .ok n ↔ parse text' = .ok n) ∧
    (∀ ps qs ds n, IsDigits ds →
      Text.trim text.toList = texts ps ++ (ds ++ ['m', 's']) ++ texts qs → parse text = .ok n →
      n = sum ps + Decimal.value ds + sum qs) ∧
    ∀ ps qs ds b b', IsDigits ds → IsBlankRun b → IsBlankRun b' → ps ++ qs ≠ [] →
      (qs ≠ [] → b' ≠ []) → Text.trim text.toList = texts ps ++ b ++ ds ++ b' ++ texts qs →
      parse text = .error (.badDuration text) := by
  refine ⟨fun n => ?_, fun ps hne htext n => ?_, fun ps qs text' hperm htext htext' n => ?_,
    fun ps qs ds n hds htext hparse => ?_, fun ps qs ds b b' hds hb hb' hne hqs htext => ?_⟩
  · rw [parse_eq_ok_iff, States]
    tauto
  · rw [parse_texts_eq_ok_iff htext]
    tauto
  · have hnil : ps = [] ↔ qs = [] := by
      rw [← List.length_eq_zero_iff, hperm.length_eq, List.length_eq_zero_iff]
    rw [parse_texts_eq_ok_iff htext, parse_texts_eq_ok_iff htext', ne_eq, hnil,
      sum_eq_of_perm hperm]
  · have htext' : Text.trim text.toList = texts (ps ++ ⟨ds, .millisecond, hds⟩ :: qs) := by
      rw [htext]
      simp [texts, Part.text, TimeUnit.name]
    obtain ⟨⟨-, rfl⟩, -⟩ := (parse_texts_eq_ok_iff htext').mp hparse
    rw [sum_append_cons]
    exact congrArg (sum ps + · + sum qs) (Nat.mul_one _)
  · refine parse_eq_badDuration_iff.mpr (.inl fun n => ?_)
    rw [states_iff, htext]
    exact not_denotes_of_unitless hds hb hb' hne hqs

/-- Milliseconds in front of minutes, a wide blank behind them, and an amount without a unit. -/
theorem parse_accepts_minutes :
    parse " 007ms5m7ms\u3000" = .ok 300014 ∧ parse "7ms007ms5m" = .ok 300014 ∧
      parse "5m 7" = .error (.badDuration "5m 7") := by
  let five : Part := ⟨['5'], .minute, by decide⟩
  let seven : Part := ⟨['7'], .millisecond, by decide⟩
  let padded : Part := ⟨['0', '0', '7'], .millisecond, by decide⟩
  have hne : [padded, five, seven] ≠ [] := by simp
  have hperm : ([padded, five] ++ [seven]).Perm ([seven] ++ [padded, five]) :=
    List.perm_append_comm
  obtain ⟨-, hsum, horder, -, -⟩ := parse_accepts " 007ms5m7ms\u3000"
  obtain ⟨-, -, -, -, hunit⟩ := parse_accepts "5m 7"
  have hfirst : parse " 007ms5m7ms\u3000" = .ok 300014 :=
    (hsum _ hne (by decide +kernel) 300014).mpr (by decide +kernel)
  refine ⟨hfirst, ?_, ?_⟩
  · exact (horder _ _ "7ms007ms5m" hperm (by decide +kernel) (by decide +kernel) 300014).mp hfirst
  · exact hunit [five] [] ['7'] [' '] [] (by decide) (by decide) (by decide) (by simp)
      (fun h => absurd rfl h) (by decide +kernel)

/-! ### Causes of errors -/

/-- An error tells its cause: what a text says is read or is out of range, and a text is malformed
exactly if it says nothing. -/
def TellsCause (text : String) : Prop :=
  (∀ n : Nat, States text n →
    parse text = if n ≤ Millis.greatest then .ok n else .error (.outOfRange text)) ∧
  (parse text = .error (.badDuration text) ↔ ∀ n, ¬ States text n)

/-- **Errors tell their cause except where an amount is out of range by itself**: such a text is
called malformed, although it says how long it would be. -/
theorem tellsCause_iff (text : String) :
    (TellsCause text ↔ ¬ Oversized (Text.trim text.toList)) ∧
      (Oversized (Text.trim text.toList) → parse text = .error (.badDuration text)) := by
  have hmalformed : Oversized (Text.trim text.toList) →
      parse text = .error (.badDuration text) :=
    fun h => parse_eq_badDuration_iff.mpr (.inr h)
  refine ⟨⟨?_, fun hsize => ⟨fun n hn => parse_of_states hn hsize, ?_⟩⟩, hmalformed⟩
  · rintro ⟨-, hnothing⟩ hsize
    -- it is called malformed although it states what its parts are together
    obtain ⟨ps, htext, p, hp, -⟩ := id hsize
    have hstates : States text (sum ps) := by
      rw [states_iff, htext]
      exact .parts (List.ne_nil_of_mem hp)
    exact hnothing.mp (hmalformed hsize) _ hstates
  · rw [parse_eq_badDuration_iff]
    tauto

/-- A sum beyond the range, and an amount beyond it in the second place. -/
theorem tellsCause_iff_edge :
    TellsCause "9223372036854775807ms1s" ∧
      parse "1s9223372036854775808ms" = .error (.badDuration "1s9223372036854775808ms") := by
  let second : Part := ⟨['1'], .second, by decide⟩
  let last : Part := ⟨"9223372036854775807".toList, .millisecond, by decide⟩
  let beyond : Part := ⟨"9223372036854775808".toList, .millisecond, by decide⟩
  have hsum : Text.trim "9223372036854775807ms1s".toList = texts [last, second] := by
    decide +kernel
  have hamount : Text.trim "1s9223372036854775808ms".toList = texts [second, beyond] := by
    decide +kernel
  refine ⟨(tellsCause_iff _).1.mpr ?_, (tellsCause_iff _).2 ?_⟩
  · rw [hsum, oversized_texts_iff]
    decide +kernel
  · rw [hamount, oversized_texts_iff]
    decide +kernel

/-- One millisecond beyond the range is called malformed with its unit, and out of range without. -/
theorem not_tellsCause_beyond :
    ¬ TellsCause "9223372036854775808ms" ∧
      parse "9223372036854775808ms" = .error (.badDuration "9223372036854775808ms") ∧
      parse "9223372036854775808" = .error (.outOfRange "9223372036854775808") := by
  have hparse : parse "9223372036854775808ms" = .error (.badDuration "9223372036854775808ms") := by
    decide +kernel
  refine ⟨?_, hparse, by decide +kernel⟩
  rintro ⟨-, hnothing⟩
  let p : Part := ⟨"9223372036854775808".toList, .millisecond, by decide⟩
  refine hnothing.mp hparse (sum [p]) (states_iff.mpr ?_)
  have htext : Text.trim "9223372036854775808ms".toList = texts [p] := by decide +kernel
  rw [htext]
  exact .parts (List.cons_ne_nil _ _)

end Duration

end QueryPrep
