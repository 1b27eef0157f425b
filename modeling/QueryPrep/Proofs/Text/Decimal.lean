import Mathlib.Algebra.Ring.Nat
import Mathlib.Data.List.Basic
import Mathlib.Data.List.Induction
import QueryPrep.Text.Numeral

/-!
# Numerals that are written and read

The digits of a number have the number as their value, whether they are filled up with zeros or not
(`value_digits`, `value_padded`), and the numeral of an integer is read as this integer
(`readInt?_write`). The number of digits is what tells numbers of a fixed width apart.
-/

namespace QueryPrep.Decimal

variable {n width : Nat} {c : Char} {ds : List Char}

/-! ### Values -/

theorem digitValue_lt (h : c.isDigit = true) : digitValue c < 10 := by
  have hle : c.toNat ≤ 57 := by
    simp only [Char.isDigit, Bool.and_eq_true, decide_eq_true_eq] at h
    exact h.2
  have hzero : '0'.toNat = 48 := rfl
  rw [digitValue]
  omega

theorem value_lt (h : ∀ d ∈ ds, d.isDigit = true) : value ds < 10 ^ ds.length := by
  induction ds with
  | nil => decide
  | cons d ds ih =>
      obtain ⟨hd, hds⟩ := List.forall_mem_cons.mp h
      have hdigit : value [d] + 1 ≤ 10 := by
        have hlt := digitValue_lt hd
        simp only [value, List.foldl_cons, List.foldl_nil]
        omega
      calc value (d :: ds)
          = value [d] * 10 ^ ds.length + value ds := value_append [d] ds
        _ < value [d] * 10 ^ ds.length + 10 ^ ds.length := Nat.add_lt_add_left (ih hds) _
        _ = (value [d] + 1) * 10 ^ ds.length := (Nat.succ_mul _ _).symm
        _ ≤ 10 * 10 ^ ds.length := Nat.mul_le_mul_right _ hdigit
        _ = 10 ^ (d :: ds).length := (Nat.pow_succ').symm

/-! ### Plain numerals -/

theorem value_digits (n : Nat) : value (digits n) = n := by
  have hfold : value (digits n) = Nat.ofDigitChars 10 (digits n) 0 := by
    rw [Nat.ofDigitChars_eq_foldl, value]
    congr 1
    funext m c
    rw [digitValue, Nat.mul_comm]
  rw [hfold, digits, Nat.ofDigitChars_ten_toDigits]

theorem digits_ne_nil (n : Nat) : digits n ≠ [] :=
  Nat.toDigits_ne_nil

theorem isDigit_of_mem_digits (h : c ∈ digits n) : c.isDigit = true :=
  Nat.isDigit_of_mem_toDigits (by decide) (by decide) h

/-- Only the numeral of zero starts with a zero. -/
theorem digits_eq_of_head (n : Nat) (h : (digits n).head? = some '0') : digits n = ['0'] := by
  induction n using Nat.strong_induction_on with
  | _ n ih =>
      rw [digits, Nat.toDigits_eq_if (by decide)] at h ⊢
      rcases Nat.lt_or_ge n 10 with hlt | hge
      · rw [if_pos hlt] at h ⊢
        exact congrArg (fun c => [c]) (Option.some.inj h)
      · rw [if_neg (Nat.not_lt.mpr hge), List.head?_append_of_ne_nil _ Nat.toDigits_ne_nil] at h
        -- then the digits in front of the last one are those of zero, but there is more than that
        have hzero := congrArg value (ih (n / 10) (by omega) h)
        rw [value_digits] at hzero
        have hnone : value ['0'] = 0 := rfl
        omega

theorem digitChar_digitValue (h : c.isDigit = true) : Nat.digitChar (digitValue c) = c := by
  have hall : ∀ k < 10, Nat.digitChar k = Char.ofNat ('0'.toNat + k) := by decide
  have hle : '0'.toNat ≤ c.toNat := by
    simp only [Char.isDigit, Bool.and_eq_true, decide_eq_true_eq] at h
    exact h.1
  rw [hall _ (digitValue_lt h), digitValue, Nat.add_sub_cancel' hle, Char.ofNat_toNat]

/-- **A run of digits without zeros in front is the numeral of its value.** -/
theorem digits_value (hne : ds ≠ []) (h : ∀ d ∈ ds, d.isDigit = true)
    (hzero : ds.head? = some '0' → ds = ['0']) : digits (value ds) = ds := by
  induction ds using List.reverseRecOn with
  | nil => exact absurd rfl hne
  | append_singleton init d ih =>
      obtain ⟨hinit, hd⟩ := List.forall_mem_append.mp h
      have hd := hd d (List.mem_singleton_self d)
      have hlt := digitValue_lt hd
      have hvalue : value (init ++ [d]) = value init * 10 + digitValue d := by
        rw [value, List.foldl_append]
        rfl
      by_cases hnil : init = []
      · subst hnil
        rw [hvalue, digits, Nat.toDigits_eq_if (by decide)]
        simp [value, hlt, digitChar_digitValue hd]
      · have hhead : init.head? ≠ some '0' := by
          intro hhead
          rw [List.head?_append_of_ne_nil _ hnil] at hzero
          simpa [hnil] using congrArg List.length (hzero hhead)
        have hrest := ih hnil hinit fun hfirst => absurd hfirst hhead
        have hpos : value init ≠ 0 := by
          intro h0
          rw [h0] at hrest
          exact hhead (hrest ▸ rfl)
        have hdiv : (value init * 10 + digitValue d) / 10 = value init := by omega
        have hmod : (value init * 10 + digitValue d) % 10 = digitValue d := by omega
        rw [digits] at hrest
        rw [hvalue, digits, Nat.toDigits_eq_if (by decide), if_neg (by omega), hdiv, hmod, hrest,
          digitChar_digitValue hd]

theorem readNat?_of_digits (hne : ds ≠ []) (h : ∀ d ∈ ds, d.isDigit = true) :
    readNat? ds = some (value ds) := by
  rw [readNat?, if_neg]
  simp [hne, List.all_eq_true.mpr h]

theorem readNat?_of_not_isDigit (hmem : c ∈ ds) (hc : c.isDigit = false) : readNat? ds = none := by
  have hall : ds.all Char.isDigit = false := List.all_eq_false.mpr ⟨c, hmem, by simp [hc]⟩
  rw [readNat?, hall, Bool.not_false, Bool.or_true, if_pos rfl]

theorem readNat?_digits (n : Nat) : readNat? (digits n) = some n := by
  rw [readNat?_of_digits (digits_ne_nil n) fun _ => isDigit_of_mem_digits, value_digits]

/-- What starts with a digit has no sign in front. -/
theorem readInt?_of_head (hc : c.isDigit = true) (ds : List Char) :
    readInt? (c :: ds) = (readNat? (c :: ds)).map Int.ofNat := by
  have hplus : readUnsigned? (c :: ds) = readNat? (c :: ds) := by
    unfold readUnsigned?
    split
    · rename_i heq
      cases heq
      exact absurd hc (by decide)
    · rfl
  unfold readInt?
  split
  · rename_i heq
    cases heq
    exact absurd hc (by decide)
  · rw [hplus]
    rcases readNat? (c :: ds) with - | n <;> rfl

/-- **The numeral of an integer is read as this integer.** -/
theorem readInt?_write (n : Int) : readInt? (write n) = some n := by
  rcases n with n | n
  · rcases hdigits : digits n with - | ⟨c, ds⟩
    · exact absurd hdigits (digits_ne_nil n)
    · have hc : c.isDigit = true := isDigit_of_mem_digits (hdigits ▸ List.mem_cons_self)
      rw [write, hdigits, readInt?_of_head hc, ← hdigits, readNat?_digits]
      rfl
  · rw [write, readInt?, readNat?_digits]
    rfl

theorem write_injective : Function.Injective write := by
  intro m n h
  have hread := congrArg readInt? h
  rw [readInt?_write, readInt?_write] at hread
  exact Option.some.inj hread

/-! ### Numerals of a fixed width -/

theorem isDigit_of_mem_padded (h : c ∈ padded width n) : c.isDigit = true := by
  rcases List.mem_append.mp h with h | h
  · rw [List.eq_of_mem_replicate h]
    rfl
  · exact isDigit_of_mem_digits h

theorem length_padded (hwidth : 0 < width) (h : n < 10 ^ width) :
    (padded width n).length = width := by
  have hle : (digits n).length ≤ width :=
    (Nat.length_toDigits_le_iff (by decide) hwidth).mpr h
  rw [padded, List.length_append, List.length_replicate, Nat.sub_add_cancel hle]

theorem padded_ne_nil (width n : Nat) : padded width n ≠ [] :=
  List.append_ne_nil_of_right_ne_nil _ (digits_ne_nil n)

/-- Zeros in front do not count. -/
theorem value_padded (width n : Nat) : value (padded width n) = n := by
  have hzeros : ∀ k, value (List.replicate k '0') = 0 := by
    intro k
    induction k with
    | zero => rfl
    | succ k ih =>
        rw [List.replicate_succ', value_append, ih]
        rfl
  rw [padded, value_append, hzeros, Nat.zero_mul, Nat.zero_add, value_digits]

theorem padded_inj {m : Nat} : padded width m = padded width n ↔ m = n := by
  refine ⟨fun h => ?_, congrArg _⟩
  have hvalue := congrArg value h
  rwa [value_padded, value_padded] at hvalue

/-- Where a number of a fixed width ends is known. -/
theorem padded_append_inj {m : Nat} {x y : List Char} (hwidth : 0 < width) (hm : m < 10 ^ width)
    (hn : n < 10 ^ width) (h : padded width m ++ x = padded width n ++ y) : m = n ∧ x = y := by
  obtain ⟨hpadded, hrest⟩ :=
    List.append_inj h (by rw [length_padded hwidth hm, length_padded hwidth hn])
  exact ⟨padded_inj.mp hpadded, hrest⟩

end QueryPrep.Decimal
