import QueryPrep.Text.Numeral

/-!
# Blanks and scanners

Every reader of a time or a duration trims its text, and the date formats skip the blanks in front
of a number. What is blank is the Unicode property White_Space.

A scanner takes something off the front of a text and leaves the rest, or fails. The notations of
timestamps and of settings files are written with the scanners of this module.

The two loops, `many` and `upTo`, go on only while an item takes at least one character, so they end
with the text.
-/

namespace QueryPrep.Text

/-! ### Blanks -/

/-- The 25 code points with the property White_Space. -/
def isBlank (c : Char) : Bool :=
  let n := c.toNat
  (9 ≤ n && n ≤ 13) || n == 0x20 || n == 0x85 || n == 0xA0 || n == 0x1680 ||
    (0x2000 ≤ n && n ≤ 0x200A) || n == 0x2028 || n == 0x2029 || n == 0x202F || n == 0x205F ||
    n == 0x3000

/-- The text without the blanks in front of it. -/
def trimStart (cs : List Char) : List Char :=
  cs.dropWhile isBlank

/-- The text without the blanks at its two ends. -/
def trim (cs : List Char) : List Char :=
  (trimStart (trimStart cs).reverse).reverse

/-! ### Scanners -/

/-- Takes an `α` off the front of a text. -/
abbrev Scan := StateT (List Char) Option

namespace Scan

variable {α β : Type}

/-! ### Characters and numbers -/

/-- One character of a class. -/
def one (p : Char → Bool) : Scan Char
  | c :: cs => if p c then some (c, cs) else none
  | [] => none

/-- One character that is among the given ones. -/
def oneOf (allowed : List Char) : Scan Char :=
  one (· ∈ allowed)

/-- A given word. -/
def word : List Char → Scan Unit
  | [], cs => some ((), cs)
  | c :: w, d :: cs => if c = d then word w cs else none
  | _ :: _, [] => none

/-- The characters of a class in front of the text. -/
def run (p : Char → Bool) : Scan (List Char) := fun cs =>
  some (cs.takeWhile p, cs.dropWhile p)

/-- The digits in front of the text, of which there must be at least `least`; those beyond `most`
are left. -/
def digits (least most : Nat) : Scan (List Char) := fun cs =>
  let ds := (Decimal.span cs).1.take most
  if ds.length < least then none else some (ds, cs.drop ds.length)

/-- A number of at least `least` and at most `most` digits. -/
def number (least most : Nat) : Scan Nat :=
  Decimal.value <$> digits least most

/-- Blanks, if there are any. -/
def blanks : Scan Unit := fun cs =>
  some ((), trimStart cs)

/-- Goes on only if a condition holds. -/
def must (p : Prop) [Decidable p] : Scan Unit :=
  if p then pure () else failure

/-- The end of the text. -/
def atEnd : Scan Unit
  | [] => some ((), [])
  | _ :: _ => none

/-- The next character, which is left in the text. -/
def ahead : Scan (Option Char) := fun cs =>
  some (cs.head?, cs)

/-- What a scanner takes, if it succeeds. -/
def optionally (s : Scan α) : Scan (Option α) :=
  some <$> s <|> pure none

/-- What a scanner reads, if it reads all of the text. -/
def whole (s : Scan α) (cs : List Char) : Option α :=
  match s cs with
  | some (a, []) => some a
  | _ => none

/-! ### Loops -/

/-- Items as long as there are any, behind those taken already, last one first. -/
def manyFrom (item : Scan α) (before : List α) (cs : List Char) : List α × List Char :=
  match item cs with
  | none => (before.reverse, cs)
  | some (a, rest) =>
    if rest.length < cs.length then manyFrom item (a :: before) rest else (before.reverse, cs)
termination_by cs.length

/-- Items as long as there are any. -/
def many (item : Scan α) : Scan (List α) := fun cs =>
  some (manyFrom item [] cs)

/-- Items up to the end that `stop` takes, behind those taken already, last one first. -/
def upToFrom (stop : Scan β) (item : Scan α) (before : List α) (cs : List Char) :
    Option ((List α × β) × List Char) :=
  match stop cs with
  | some (b, rest) => some ((before.reverse, b), rest)
  | none =>
    match item cs with
    | none => none
    | some (a, rest) =>
      if rest.length < cs.length then upToFrom stop item (a :: before) rest else none
termination_by cs.length

/-- Items up to the end that `stop` takes, and what it makes of that. -/
def upTo (stop : Scan β) (item : Scan α) : Scan (List α × β) :=
  upToFrom stop item []

end Scan

end QueryPrep.Text
