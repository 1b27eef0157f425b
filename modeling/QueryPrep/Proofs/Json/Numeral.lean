import Mathlib.Data.List.Basic
import QueryPrep.Json.Number
import QueryPrep.Proofs.Reading

/-!
# Spellings of numerals

How a number is written in JSON: a sign, the digits of its whole part, which do not start with a
zero unless that is all, a point with digits behind it, and an exponent. Only the exponent leaves a
choice, of the letter and of a plus sign.

Main result: a numeral is found in front of whatever does not go on with it
(`Numeral.scan_append`). Each of its parts is a run of digits that ends where the next part begins.
-/

namespace QueryPrep.Json

open Text (Marks takeWhile_run_append dropWhile_run_append)

namespace Numeral

/-- At least one digit and nothing else. -/
def IsDigits (cs : List Char) : Prop :=
  cs ≠ [] ∧ ∀ c ∈ cs, c.isDigit = true

instance (cs : List Char) : Decidable (IsDigits cs) :=
  decidable_of_iff (cs ≠ [] ∧ cs.all Char.isDigit = true) (Iff.rfl.and List.all_eq_true)

/-- The parts of a numeral are runs of digits, and a zero in front of its whole part is all of
that. -/
structure IsWellFormed (x : Numeral) : Prop where
  whole : IsDigits x.whole
  no_leading_zero : x.whole.head? = some '0' → x.whole = ['0']
  fraction : ∀ ds ∈ x.fraction, IsDigits ds
  exponent : ∀ e ∈ x.exponent, IsDigits e.2

/-- The spellings of an exponent. -/
inductive IsExponentText : Option (Bool × List Char) → List Char → Prop where
  | none : IsExponentText none []
  | negative {e : Char} (he : e = 'e' ∨ e = 'E') (ds : List Char) :
      IsExponentText (some (true, ds)) (e :: '-' :: ds)
  | positive {e : Char} (he : e = 'e' ∨ e = 'E') (ds : List Char) :
      IsExponentText (some (false, ds)) (e :: '+' :: ds)
  | unsigned {e : Char} (he : e = 'e' ∨ e = 'E') (ds : List Char) :
      IsExponentText (some (false, ds)) (e :: ds)

/-- The point and the digits behind it. -/
def fractionText (x : Numeral) : List Char :=
  x.fraction.elim [] ('.' :: ·)

/-- The spellings of a numeral. -/
def IsText (x : Numeral) (cs : List Char) : Prop :=
  x.IsWellFormed ∧ ∃ exponent, IsExponentText x.exponent exponent ∧
    cs = (if x.negative then ['-'] else []) ++ x.whole ++ x.fractionText ++ exponent

/-- A character that a numeral goes on with. -/
def isPart (m : Option Char) : Bool :=
  m.any fun c => c.isDigit || c = '.' || c = 'e' || c = 'E'

/-- Nothing in front of a text belongs to a numeral before it. -/
def Ends (s : Marks) : Prop :=
  ∀ m ∈ s.head?, isPart m = false

variable {x : Numeral} {cs ds : List Char} {s : Marks}

theorem Ends.no_digit (h : Ends s) : ∀ m ∈ s.head?, m.any Char.isDigit = false := by
  intro m hm
  have hpart := h m hm
  rcases m with - | c
  · rfl
  · simp only [isPart, Option.any_some, Bool.or_eq_false_iff] at hpart
    simp [hpart.1.1.1]

theorem digits_append (hds : ∀ c ∈ ds, c.isDigit = true)
    (hs : ∀ m ∈ s.head?, m.any Char.isDigit = false) : digits (ds.map some ++ s) = (ds, s) := by
  have hrun : ∀ m ∈ ds.map some, m.any Char.isDigit = true := by
    simpa using hds
  rw [digits, takeWhile_run_append hrun hs, dropWhile_run_append hrun hs]
  simp

theorem scanFraction_append {fraction : Option (List Char)}
    (hfraction : ∀ ds ∈ fraction, IsDigits ds)
    (hdigit : ∀ m ∈ s.head?, m.any Char.isDigit = false) (hpoint : s.head? ≠ some (some '.')) :
    scanFraction ((fraction.elim [] ('.' :: ·)).map some ++ s) = some (fraction, s) := by
  rcases fraction with - | ds
  · rcases s with - | ⟨m, s⟩
    · rfl
    · simp only [Option.elim_none, List.map_nil, List.nil_append]
      unfold scanFraction
      split
      · next heq =>
          rw [heq] at hpoint
          exact absurd rfl hpoint
      · rfl
  · obtain ⟨hne, hds⟩ := hfraction ds rfl
    simp only [Option.elim_some, List.map_cons, List.cons_append, scanFraction,
      digits_append hds hdigit]
    simp [hne]

theorem scanExponent_append {exponent : Option (Bool × List Char)}
    (h : IsExponentText exponent cs) (hexponent : ∀ e ∈ exponent, IsDigits e.2) (hs : Ends s) :
    scanExponent (cs.map some ++ s) = some (exponent, s) := by
  cases h with
  | none =>
      rcases s with - | ⟨m, s⟩
      · rfl
      · have hm := hs m rfl
        simp only [List.map_nil, List.nil_append]
        unfold scanExponent
        split
        · next heq =>
            cases heq
            exact absurd hm (by decide)
        · next heq =>
            cases heq
            exact absurd hm (by decide)
        · rfl
  | negative he ds =>
      obtain ⟨hne, hds⟩ := hexponent _ rfl
      rcases he with rfl | rfl <;>
        simp [scanExponent, scanSign, digits_append hds hs.no_digit, hne]
  | positive he ds =>
      obtain ⟨hne, hds⟩ := hexponent _ rfl
      rcases he with rfl | rfl <;>
        simp [scanExponent, scanSign, digits_append hds hs.no_digit, hne]
  | unsigned he ds =>
      obtain ⟨hne, hds⟩ := hexponent _ rfl
      have hsign : scanSign (ds.map some ++ s) = (false, ds.map some ++ s) := by
        rcases ds with - | ⟨d, ds⟩
        · exact absurd rfl hne
        · have hd := hds d List.mem_cons_self
          simp only [List.map_cons, List.cons_append]
          unfold scanSign
          split <;> simp_all
      rcases he with rfl | rfl <;>
        simp [scanExponent, hsign, digits_append hds hs.no_digit, hne]

/-- What may stand in front of an exponent and behind it. -/
theorem head_exponentText {exponent : Option (Bool × List Char)} (h : IsExponentText exponent cs)
    (hs : Ends s) : (∀ m ∈ (cs.map some ++ s).head?, m.any Char.isDigit = false) ∧
      (cs.map some ++ s).head? ≠ some (some '.') := by
  cases h with
  | none =>
      refine ⟨hs.no_digit, fun hpoint => ?_⟩
      have hpart := hs (some '.') (by simpa using hpoint)
      exact absurd hpart (by decide)
  | negative he ds => rcases he with rfl | rfl <;> simp
  | positive he ds => rcases he with rfl | rfl <;> simp
  | unsigned he ds => rcases he with rfl | rfl <;> simp

/-- The numeral behind a sign. -/
def scanUnsigned (negative : Bool) (s : Marks) : Option (Numeral × Marks) := do
  let (whole, s) := digits s
  if whole.isEmpty || (whole.head? == some '0' && whole.length != 1) then none
  let (fraction, s) ← scanFraction s
  let (exponent, s) ← scanExponent s
  return (⟨negative, whole, fraction, exponent⟩, s)

theorem scan_minus (s : Marks) : scan (some '-' :: s) = scanUnsigned true s :=
  rfl

theorem scan_of_head_ne (h : s.head? ≠ some (some '-')) : scan s = scanUnsigned false s := by
  unfold scan
  split
  next heq =>
    split at heq
    · exact absurd rfl h
    · cases heq
      rfl

theorem scanUnsigned_append (hx : x.IsWellFormed) (h : IsExponentText x.exponent cs) (hs : Ends s) :
    scanUnsigned x.negative (x.whole.map some ++ (x.fractionText.map some ++ (cs.map some ++ s))) =
      some (x, s) := by
  obtain ⟨hne, hwhole⟩ := hx.whole
  obtain ⟨hdigit, hpoint⟩ := head_exponentText h hs
  have hbehind : ∀ m ∈ (x.fractionText.map some ++ (cs.map some ++ s)).head?,
      m.any Char.isDigit = false := by
    rcases hf : x.fraction with - | ds
    · simpa [fractionText, hf] using hdigit
    · simp [fractionText, hf]
  have hzero :
      ¬ (x.whole.isEmpty || (x.whole.head? == some '0' && x.whole.length != 1)) = true := by
    rcases hhead : x.whole.head? == some '0' with - | -
    · simp [hne]
    · have hone := hx.no_leading_zero (by simpa using hhead)
      simp [hone]
  unfold scanUnsigned
  rw [digits_append hwhole hbehind]
  simp only [fractionText, if_neg hzero, scanFraction_append hx.fraction hdigit hpoint,
    Option.bind_eq_bind, Option.bind_some, scanExponent_append h hx.exponent hs]
  rfl

/-- **A numeral is found in front of whatever does not go on with it.** -/
theorem scan_append (h : x.IsText cs) (hs : Ends s) : scan (cs.map some ++ s) = some (x, s) := by
  obtain ⟨hx, exponent, hexponent, rfl⟩ := h
  have hbody := scanUnsigned_append hx hexponent hs
  rcases hsign : x.negative with - | -
  · obtain ⟨hne, hwhole⟩ := hx.whole
    have hhead : (x.whole.map some ++ (x.fractionText.map some ++ (exponent.map some ++ s))).head? ≠
        some (some '-') := by
      rcases hw : x.whole with - | ⟨d, ds⟩
      · exact absurd hw hne
      · have hd := hwhole d (by simp [hw])
        simp only [List.map_cons, List.cons_append, List.head?_cons, ne_eq, Option.some.injEq]
        rintro rfl
        exact absurd hd (by decide)
    rw [hsign, ← scan_of_head_ne hhead] at hbody
    simpa using hbody
  · rw [hsign, ← scan_minus] at hbody
    simpa using hbody

end Numeral

end QueryPrep.Json
