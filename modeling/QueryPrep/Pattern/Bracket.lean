import QueryPrep.Pattern.Atom

/-!
# Sets of characters in brackets

A set lists characters, ranges of them, escapes, named classes such as `[:alpha:]` and further sets
in brackets. The marks `&&`, `--` and `~~` combine what stands in front of them with what follows.

Of a set only its height counts: how deep the parts of the pattern are nested.
-/

namespace QueryPrep.Pattern

/-! ### Heights -/

/-- Parts that stand side by side: how many there are and the height of the highest one. -/
structure Row where
  size : Nat
  height : Nat
deriving DecidableEq, Repr

namespace Row

def empty : Row := ⟨0, 0⟩

def add (r : Row) (height : Nat) : Row :=
  ⟨r.size + 1, max r.height height⟩

/-- The height of the parts together; a part that stands alone is not nested. -/
def total (r : Row) : Nat :=
  if r.size ≤ 1 then r.height else r.height + 1

end Row

namespace Bracket

/-! ### Items -/

def classNames : List (List Char) :=
  ["alnum", "alpha", "ascii", "blank", "cntrl", "digit", "graph", "lower", "print", "punct",
    "space", "upper", "word", "xdigit"].map String.toList

/-- A named class behind its opening bracket; true is returned if it is negated. -/
def readClass : List Char → Option (Bool × List Char)
  | ':' :: cs =>
    let (negated, cs) := match cs with
      | '^' :: cs => (true, cs)
      | cs => (false, cs)
    let name := cs.takeWhile (· ≠ ':')
    match cs.drop name.length with
    | ':' :: ']' :: cs => if name ∈ classNames then some (negated, cs) else none
    | _ => none
  | _ => none

/-- A character or an escape. -/
def readAtom (mode : Mode) : List Char → Option (Atom × List Char)
  | [] => none
  | '\\' :: cs => Atom.readEscape mode cs
  | c :: cs => some (.char c false, cs)

/-- The atom may be an item: it stands for characters, and where atoms are bytes for one byte. -/
def isItem (mode : Mode) : Atom → Bool
  | .char c _ => mode.unicode || c < '\x80'
  | .shorthand negated => mode.unicode || !negated
  | .category => mode.unicode
  | _ => false

/-- The character that decides whether a minus sign in front of a text makes a range. A comment is
seen through as far as its hash sign only, and a text that is all blank is not skipped. -/
def ahead? (mode : Mode) (cs : List Char) : Option Char :=
  if !mode.spaced then cs.head?
  else
    let shown := match cs.dropWhile Text.isBlank with
      | '#' :: cs => cs.dropWhile Text.isBlank
      | cs => cs
    shown.head? <|> cs.head?

/-- An item that is no set and no named class: an atom or a range. -/
def readItem (mode : Mode) (cs : List Char) : Option (List Char) := do
  let (a, cs) ← readAtom mode cs
  if !isItem mode a then none
  match mode.skip cs with
  | [] => none
  | '-' :: cs =>
    if ahead? mode cs = some ']' ∨ ahead? mode cs = some '-' then return '-' :: cs
    match mode.skip cs with
    | [] => none
    | cs =>
      let (b, cs) ← readAtom mode cs
      match a, b with
      | .char first _, .char last _ =>
        if isItem mode b && first ≤ last then return cs else none
      | _, _ => none
  | cs => return cs

/-! ### Sets -/

/-- A set that is being read: its items since the last mark that combines, and the height of what
stands in front of that mark. -/
structure Frame where
  items : Row
  before : Option Nat

namespace Frame

/-- The height of all that was read. -/
def height (f : Frame) : Nat :=
  f.before.elim f.items.total fun h => max h f.items.total + 1

/-- Goes on behind a mark that combines. -/
def combine (f : Frame) : Frame :=
  ⟨.empty, some f.height⟩

end Frame

/-- Minus signs at the beginning of a set, which are characters: how many there are. -/
def leadingDashes (mode : Mode) (cs : List Char) : Nat × List Char :=
  match cs with
  | '-' :: cs =>
    let (n, cs) := leadingDashes mode (mode.skip cs)
    (n + 1, cs)
  | cs => (0, cs)
termination_by cs.length
decreasing_by
  have := mode.skip_length_le cs
  simp only [List.length_cons]
  omega

/-- Opens a set behind its bracket. A closing bracket that comes first is a character. Where atoms
are bytes no set may be negated, because there are bytes that are no characters. -/
def openSet (mode : Mode) (cs : List Char) : Option (Frame × List Char) := do
  let (negated, cs) := match mode.skip cs with
    | '^' :: cs => (true, mode.skip cs)
    | cs => (false, cs)
  if negated && !mode.unicode then none
  let (dashes, cs) := leadingDashes mode cs
  let (size, cs) := match dashes, cs with
    | 0, ']' :: cs => (1, mode.skip cs)
    | dashes, cs => (dashes, cs)
  if cs.isEmpty then none else return (⟨⟨size, 0⟩, none⟩, cs)

/-- Takes one step inside a set, the sets around it being `outer`. The result is the height of the
outermost set when that is closed. -/
def step (mode : Mode) (f : Frame) (outer : List Frame) (cs : List Char) :
    Option ((Frame × List Frame ⊕ Nat) × List Char) := do
  match mode.skip cs with
  | [] => none
  | '[' :: cs =>
    match readClass cs with
    | some (negated, cs) =>
      if negated && !mode.unicode then none
      else return (.inl ({ f with items := f.items.add 0 }, outer), cs)
    | none =>
      let (inner, cs) ← openSet mode cs
      return (.inl (inner, f :: outer), cs)
  | ']' :: cs =>
    match outer with
    | [] => return (.inr (f.height + 1), cs)
    | g :: outer => return (.inl ({ g with items := g.items.add (f.height + 1) }, outer), cs)
  | '&' :: '&' :: cs | '-' :: '-' :: cs | '~' :: '~' :: cs =>
    return (.inl (f.combine, outer), cs)
  | cs => return (.inl ({ f with items := f.items.add 0 }, outer), ← readItem mode cs)

/-- Reads on to the end of the outermost set. -/
def readFrom (mode : Mode) (f : Frame) (outer : List Frame) (cs : List Char) :
    Option (Nat × List Char) :=
  match step mode f outer cs with
  | none => none
  | some (.inr height, rest) => some (height, rest)
  | some (.inl (f, outer), rest) =>
    if rest.length < cs.length then readFrom mode f outer rest else none
termination_by cs.length

/-- The height of a set behind its opening bracket, and what follows it. -/
def read (mode : Mode) (cs : List Char) : Option (Nat × List Char) := do
  let (f, cs) ← openSet mode cs
  readFrom mode f [] cs

end Bracket

end QueryPrep.Pattern
