import QueryPrep.Text.Numeral
import QueryPrep.Text.Scan

/-!
# The atoms of patterns

A pattern is a regular expression for the text of a value. Patterns are never matched here, but a
pattern must be sound, so they are read as far as their form goes. The atoms are the characters, the
escapes and the marks that stand for one character or for a place between two.

A pattern cannot hold a closing brace, because the brace ends the field that the pattern belongs to.
So whatever begins with an opening brace (a counted repetition, a named property, a long code) is
never complete, and no scanner of these modules reads it.
-/

namespace QueryPrep.Pattern

/-! ### Modes -/

/-- How a part of a pattern is read. -/
structure Mode where
  /-- Blanks do not count, and a hash sign begins a comment. -/
  spaced : Bool
  /-- Atoms stand for characters of Unicode; otherwise for single bytes. -/
  unicode : Bool
deriving DecidableEq, Repr

/-- The mode at the beginning of a pattern. -/
def Mode.standard : Mode :=
  ⟨false, true⟩

/-- What follows blanks and comments. -/
def afterBlanks (cs : List Char) : List Char :=
  match cs with
  | [] => []
  | c :: cs =>
    if Text.isBlank c then afterBlanks cs
    else if c = '#' then afterBlanks ((cs.dropWhile (· ≠ '\n')).drop 1)
    else c :: cs
termination_by cs.length
decreasing_by
  · simp
  · have := (List.dropWhile_sublist (· ≠ '\n') (l := cs)).length_le
    simp only [List.length_drop, List.length_cons]
    omega

/-- What follows the blanks and comments that do not count. -/
def Mode.skip (mode : Mode) (cs : List Char) : List Char :=
  if mode.spaced then afterBlanks cs else cs

theorem afterBlanks_length_le (cs : List Char) : (afterBlanks cs).length ≤ cs.length := by
  fun_induction afterBlanks cs with
  | case1 => simp
  | case2 c cs _ ih => simp only [List.length_cons]; omega
  | case3 cs _ ih =>
    have := (List.dropWhile_sublist (· ≠ '\n') (l := cs)).length_le
    simp only [List.length_drop, List.length_cons] at ih ⊢
    omega
  | case4 => simp

theorem Mode.skip_length_le (mode : Mode) (cs : List Char) :
    (mode.skip cs).length ≤ cs.length := by
  unfold Mode.skip
  split
  · exact afterBlanks_length_le cs
  · exact Nat.le_refl _

/-! ### Atoms -/

inductive Atom where
  /-- A character; `coded` tells that it was written as a code of two digits, which is a byte where
  atoms are bytes. -/
  | char (c : Char) (coded : Bool)
  /-- Any character of a line. -/
  | dot
  /-- The beginning or the end of a line or of the text. -/
  | anchor
  /-- The beginning or the end of a word, or a place that is neither. -/
  | wordEdge
  /-- Digits, blanks or word characters, or all others. -/
  | shorthand (negated : Bool)
  /-- A general category of characters. -/
  | category
deriving DecidableEq, Repr

namespace Atom

/-- The atom stands for whole characters in a mode. -/
def fits (mode : Mode) : Atom → Bool
  | char c coded => mode.unicode || !coded || c < '\x80'
  | dot | category => mode.unicode
  | shorthand negated => mode.unicode || !negated
  | anchor | wordEdge => true

/-- The digits of a code, of which there must be `width`. -/
def readCode (mode : Mode) : (width : Nat) → List Char → Option (List Char × List Char)
  | 0, cs => some ([], cs)
  | width + 1, cs =>
    match mode.skip cs with
    | c :: cs =>
      if Hexadecimal.isDigit c then
        (readCode mode width cs).map fun (digits, cs) => (c :: digits, cs)
      else none
    | [] => none

/-- A character by its code. -/
def readCoded (mode : Mode) (width : Nat) (cs : List Char) : Option (Atom × List Char) := do
  let (digits, cs) ← readCode mode width cs
  let n := Hexadecimal.value digits
  if n.isValidChar then some (char (.ofNat n) (width = 2), cs) else none

/-- The letters of the general categories. -/
def categories : List Char :=
  ['c', 'l', 'm', 'n', 'p', 's', 'z']

/-- What follows a backslash. -/
def readEscape (mode : Mode) : List Char → Option (Atom × List Char)
  | [] => none
  | c :: cs =>
    match c with
    | 'x' => readCoded mode 2 cs
    | 'u' => readCoded mode 4 cs
    | 'U' => readCoded mode 8 cs
    | 'p' | 'P' =>
      match mode.skip cs with
      | c :: cs => if c.toLower ∈ categories then some (category, cs) else none
      | [] => none
    | 'd' | 's' | 'w' => some (shorthand false, cs)
    | 'D' | 'S' | 'W' => some (shorthand true, cs)
    | 'a' => some (char '\x07' false, cs)
    | 'f' => some (char '\x0c' false, cs)
    | 'n' => some (char '\n' false, cs)
    | 'r' => some (char '\r' false, cs)
    | 't' => some (char '\t' false, cs)
    | 'v' => some (char '\x0b' false, cs)
    | 'A' | 'z' => some (anchor, cs)
    | 'b' => if cs.head? = some '\x7b' then none else some (wordEdge, cs)
    | 'B' | '<' | '>' => some (wordEdge, cs)
    | c => if c.isAlphanum || '\x80' ≤ c then none else some (char c false, cs)

/-- The atom that begins with a character, outside of brackets. -/
def read (mode : Mode) (c : Char) (cs : List Char) : Option (Atom × List Char) :=
  match c with
  | '\\' => readEscape mode cs
  | '.' => some (dot, cs)
  | '^' | '$' => some (anchor, cs)
  | c => some (char c false, cs)

end Atom

end QueryPrep.Pattern
