/-!
# The range of milliseconds

Every instant and every span is a whole number of milliseconds. Numbers are exact here, and the
limits of the signed 64-bit range are stated where they apply: a result that leaves the range is
refused or held at the limit, never wrapped.
-/

namespace QueryPrep.Millis

/-- The least and the greatest number of milliseconds. -/
def least : Int := -9223372036854775808

@[inherit_doc least]
def greatest : Int := 9223372036854775807

/-- The numbers of milliseconds that are instants or spans. -/
def Fits (n : Int) : Prop :=
  least ≤ n ∧ n ≤ greatest

instance (n : Int) : Decidable (Fits n) :=
  inferInstanceAs (Decidable (_ ∧ _))

/-- What lies between two numbers in range is in range. -/
theorem Fits.between {lo n hi : Int} (hlo : Fits lo) (hhi : Fits hi) (hle : lo ≤ n) (hge : n ≤ hi) :
    Fits n :=
  ⟨Int.le_trans hlo.1 hle, Int.le_trans hge hhi.2⟩

/-- The number itself, if it is in range. -/
def checked? (n : Int) : Option Int :=
  if Fits n then some n else none

theorem checked?_eq_some_iff {n m : Int} : checked? n = some m ↔ m = n ∧ Fits n := by
  unfold checked?
  split <;> simp_all [eq_comm]

theorem checked?_of_fits {n : Int} (h : Fits n) : checked? n = some n :=
  if_pos h

theorem checked?_of_not_fits {n : Int} (h : ¬ Fits n) : checked? n = none :=
  if_neg h

theorem fits_zero : Fits 0 := by
  decide

/-- The number in range that is nearest to a number. -/
def clamp (n : Int) : Int :=
  max least (min n greatest)

/-- Next to a bound in range the lower limit does not show. -/
theorem max_clamp {n m : Int} (hn : n ≤ greatest) (hm : least ≤ m) : max (clamp n) m = max n m := by
  unfold clamp
  omega

end QueryPrep.Millis
