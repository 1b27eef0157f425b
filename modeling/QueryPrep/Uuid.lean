/-!
# Identifiers of requests

Universally unique identifiers of version 4: 122 free bits, and the version and the variant at fixed
places, in hexadecimal digits with dashes between the five groups. `isVersion4_version4` says that
whatever the free bits are, the identifier has this form.
-/

namespace QueryPrep.Uuid

/-- A number in a fixed number of hexadecimal digits; higher ones are dropped. -/
def hex : (count : Nat) → Nat → List Char
  | 0, _ => []
  | count + 1, n => hex count (n / 16) ++ [Nat.digitChar (n % 16)]

/-- The identifier with the given free bits. -/
def version4 (bits : Nat) : List Char :=
  hex 8 bits ++ '-' :: hex 4 (bits >>> 32) ++ '-' :: '4' :: hex 3 (bits >>> 48) ++
    '-' :: Nat.digitChar (8 + (bits >>> 60) % 4) :: hex 3 (bits >>> 62) ++
    '-' :: hex 12 (bits >>> 74)

def isHexDigit (c : Char) : Bool :=
  c ∈ "0123456789abcdef".toList

/-- The form of an identifier: the characters that may stand at each place. -/
def form : List (Char → Bool) :=
  let digits (count : Nat) := List.replicate count isHexDigit
  let dash (c : Char) := c == '-'
  digits 8 ++ dash :: digits 4 ++ dash :: (· == '4') :: digits 3 ++
    dash :: (['8', '9', 'a', 'b'].contains ·) :: digits 3 ++ dash :: digits 12

/-- The characters have the form of classes, one for each. -/
def Matches : List (Char → Bool) → List Char → Prop
  | [], [] => True
  | p :: ps, c :: cs => p c = true ∧ Matches ps cs
  | _, _ => False

instance decidableMatches : (ps : List (Char → Bool)) → (cs : List Char) → Decidable (Matches ps cs)
  | [], [] => isTrue trivial
  | [], _ :: _ => isFalse id
  | _ :: _, [] => isFalse id
  | _ :: ps, _ :: cs => @instDecidableAnd _ _ _ (decidableMatches ps cs)

/-- A text is an identifier of version 4. -/
def IsVersion4 (cs : List Char) : Prop :=
  Matches form cs

instance (cs : List Char) : Decidable (IsVersion4 cs) :=
  decidableMatches form cs

theorem Matches.append {ps qs : List (Char → Bool)} {cs ds : List Char} (h : Matches ps cs)
    (k : Matches qs ds) : Matches (ps ++ qs) (cs ++ ds) := by
  induction ps generalizing cs with
  | nil => cases cs with
    | nil => exact k
    | cons => exact h.elim
  | cons p ps ih => cases cs with
    | nil => exact h.elim
    | cons c cs => exact ⟨h.1, ih h.2⟩

theorem isHexDigit_digitChar : ∀ n < 16, isHexDigit (Nat.digitChar n) = true := by
  decide

theorem matches_hex (count n : Nat) : Matches (List.replicate count isHexDigit) (hex count n) := by
  induction count generalizing n with
  | zero => trivial
  | succ count ih =>
    rw [List.replicate_succ']
    exact (ih _).append ⟨isHexDigit_digitChar _ (Nat.mod_lt _ (by decide)), trivial⟩

theorem isVersion4_version4 (bits : Nat) : IsVersion4 (version4 bits) := by
  have variant : ∀ n < 4, ['8', '9', 'a', 'b'].contains (Nat.digitChar (8 + n)) = true := by decide
  have h (count n : Nat) {qs : List (Char → Bool)} {ds : List Char} (k : Matches qs ds) :
      Matches (List.replicate count isHexDigit ++ qs) (hex count n ++ ds) :=
    (matches_hex count n).append k
  unfold IsVersion4 form version4
  simp only [List.append_assoc, List.cons_append]
  refine h 8 _ ⟨rfl, h 4 _ ⟨rfl, rfl, h 3 _ ⟨rfl, ?_, h 3 _ ⟨rfl, matches_hex 12 _⟩⟩⟩⟩
  exact variant _ (Nat.mod_lt _ (by decide))

end QueryPrep.Uuid
