import QueryPrep.Proofs.Reading
import QueryPrep.Proofs.Text.Decimal
import QueryPrep.Text.Scan

/-!
# What scanners take off a text

A scanner is run step by step: if its first part takes something off the front of a text, the rest
of it goes on with what is left (`run_bind`), and if the first part fails so does the whole
(`fail_bind`). For the parts there is one lemma each, about a text that begins with what the part is
looking for. A run of digits ends where no digit follows or where the scanner takes no more of them
(`digits_append`), so a number of a fixed width needs nothing behind it (`number_padded_append`).
-/

namespace QueryPrep.Text.Scan

variable {α β : Type} {s : Scan α} {f : α → Scan β} {a : α} {cs rest ds : List Char} {c : Char}
  {least most n : Nat}

/-! ### Steps -/

theorem run_bind (h : s cs = some (a, rest)) : (s >>= f) cs = f a rest := by
  show (s cs).bind (fun p => f p.1 p.2) = _
  rw [h]
  rfl

theorem fail_bind (h : s cs = none) : (s >>= f) cs = none := by
  show (s cs).bind (fun p => f p.1 p.2) = _
  rw [h]
  rfl

theorem run_must {p : Prop} [Decidable p] (h : p) : must p cs = some ((), cs) := by
  rw [must, if_pos h]
  rfl

theorem oneOf_cons {allowed : List Char} (h : c ∈ allowed) :
    oneOf allowed (c :: rest) = some (c, rest) :=
  if_pos (decide_eq_true h)

theorem blanks_of_head (h : ∀ c ∈ cs.head?, isBlank c = false) : blanks cs = some ((), cs) := by
  rw [blanks, trimStart, dropWhile_eq_self_of_head h]

theorem whole_of_run (h : s cs = some (a, [])) : whole s cs = some a := by
  rw [whole, h]

theorem whole_of_fail (h : s cs = none) : whole s cs = none := by
  rw [whole, h]

/-! ### Numbers -/

theorem digits_append (hds : ∀ d ∈ ds, d.isDigit = true) (hleast : least ≤ ds.length)
    (hmost : ds.length ≤ most)
    (hend : ds.length = most ∨ ∀ c ∈ rest.head?, c.isDigit = false) :
    digits least most (ds ++ rest) = some (ds, rest) := by
  have htake : (Decimal.span (ds ++ rest)).1.take most = ds := by
    rw [Decimal.span, List.takeWhile_append_of_pos hds]
    rcases hend with rfl | hrest
    · exact List.take_left
    · rw [takeWhile_eq_nil_of_head hrest, List.append_nil, List.take_of_length_le hmost]
  simp only [digits, htake, if_neg (Nat.not_lt.mpr hleast), List.drop_left]

theorem number_append (hds : ∀ d ∈ ds, d.isDigit = true) (hleast : least ≤ ds.length)
    (hmost : ds.length ≤ most)
    (hend : ds.length = most ∨ ∀ c ∈ rest.head?, c.isDigit = false) :
    number least most (ds ++ rest) = some (Decimal.value ds, rest) := by
  rw [number, map_eq_pure_bind, run_bind (digits_append hds hleast hmost hend)]
  rfl

/-- **A number in as many digits as are taken** is read as this number, whatever follows. -/
theorem number_padded_append (hleast : least ≤ most) (hpos : 0 < most) (h : n < 10 ^ most)
    (rest : List Char) :
    number least most (Decimal.padded most n ++ rest) = some (n, rest) := by
  have hlength := Decimal.length_padded hpos h
  rw [number_append (fun _ => Decimal.isDigit_of_mem_padded) (by omega) (by omega) (.inl hlength),
    Decimal.value_padded]

end QueryPrep.Text.Scan
