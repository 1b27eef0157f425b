import QueryPrep.Pattern.Bracket
import QueryPrep.Text.Alphanumeric

/-!
# Sound patterns

Alternatives, sequences, repetitions and groups: `check` reads a whole pattern and says whether it
can be used. The groups that are open are kept on a stack, so no nesting is too deep to be read;
what is nested more than `maxHeight` levels deep is refused.

A sound pattern must also be one that can be decided character by character. Edges of words cannot,
where words are made of characters of Unicode.
-/

namespace QueryPrep.Pattern

/-- Why a pattern cannot be used. -/
inductive Fault where
  /-- It is not formed as it should be. -/
  | malformed
  /-- It asks for edges of words. -/
  | wordEdge
deriving DecidableEq, Repr

def Fault.message : Fault → String
  | .malformed => "error building NFA"
  | .wordEdge => "unsupported regex feature for DFAs"

/-- How deep a pattern may be nested. -/
def maxHeight : Nat := 250

/-! ### What is being read -/

/-- A part of a sequence. -/
structure Part where
  height : Nat
  /-- The part stands for something, so it may be repeated. -/
  isMatcher : Bool
deriving DecidableEq, Repr

/-- A group that is open, or the whole pattern. -/
structure Level where
  mode : Mode
  /-- The height of the highest alternative before the present one. -/
  before : Option Nat
  /-- The parts of the present alternative, last one first. -/
  parts : List Part

namespace Level

/-- The height of the present alternative. -/
def rowHeight (l : Level) : Nat :=
  (l.parts.foldl (fun r p => r.add p.height) Row.empty).total

/-- The height of all alternatives. -/
def height (l : Level) : Nat :=
  l.before.elim l.rowHeight fun h => max h (l.rowHeight + 1)

/-- Adds a part that stands for something. -/
def push (l : Level) (height : Nat) : Level :=
  { l with parts := ⟨height, true⟩ :: l.parts }

/-- Begins a further alternative. -/
def alternate (l : Level) : Level :=
  { l with before := some (max (l.before.getD 0) (l.rowHeight + 1)), parts := [] }

end Level

/-- A pattern that is being read. -/
structure Draft where
  level : Level
  outer : List Level
  /-- The names of groups. -/
  names : List (List Char)
  hasWordEdge : Bool

namespace Draft

def start : Draft :=
  ⟨⟨.standard, none, []⟩, [], [], false⟩

/-- Opens a group with a mode of its own. -/
def openGroup (d : Draft) (mode : Mode) : Draft :=
  { d with level := ⟨mode, none, []⟩, outer := d.level :: d.outer }

/-- Adds an atom, if it fits. -/
def pushAtom (d : Draft) (a : Atom) : Option Draft :=
  if a.fits d.level.mode then
    some { d with
      level := d.level.push 0
      hasWordEdge := d.hasWordEdge || (a = .wordEdge && d.level.mode.unicode) }
  else none

/-- Repeats the last part. -/
def repeatLast (d : Draft) : Option Draft :=
  match d.level.parts with
  | ⟨height, true⟩ :: parts =>
    some { d with level := { d.level with parts := ⟨height + 1, true⟩ :: parts } }
  | _ => none

end Draft

/-! ### Groups -/

/-- A character of a group's name. -/
def isNameChar (c : Char) : Bool :=
  Text.isAlphanumeric c || c ∈ ['_', '.', '[', ']']

/-- The name of a group, which must be new. -/
def readName (d : Draft) (cs : List Char) : Option (Draft × List Char) :=
  let name := cs.takeWhile (· ≠ '>')
  let isNew := !d.names.any (· = name)
  match name, cs.drop name.length with
  | c :: more, _ :: cs =>
    if (Text.isAlphabetic c || c = '_') && more.all isNameChar && isNew then
      some ({ d with names := name :: d.names }.openGroup d.level.mode, cs)
    else none
  | _, _ => none

/-- Flags with what they say, those behind a minus sign being switched off. -/
def readFlags : (on : Bool) → List Char → Option (List (Char × Bool))
  | _, [] => some []
  | true, '-' :: c :: cs => readFlags false (c :: cs)
  | on, [c] => if c ∈ ['i', 'm', 's', 'U', 'u', 'R', 'x'] then some [(c, on)] else none
  | on, c :: d :: cs =>
    if c ∈ ['i', 'm', 's', 'U', 'u', 'R', 'x'] then ((c, on) :: ·) <$> readFlags on (d :: cs)
    else none

/-- The mode with flags; most of them do not matter. -/
def Mode.apply (mode : Mode) (flags : List (Char × Bool)) : Mode where
  spaced := (flags.lookup 'x').getD mode.spaced
  unicode := (flags.lookup 'u').getD mode.unicode

/-- Flags by themselves, or at the beginning of a group. No flag may be given twice. -/
def readFlagged (d : Draft) (cs : List Char) : Option (Draft × List Char) := do
  let text := cs.takeWhile fun c => c ≠ ':' && c ≠ ')'
  let flags ← readFlags true text
  if ¬ (flags.map (·.1)).Nodup then none
  let mode := d.level.mode.apply flags
  match cs.drop text.length with
  | ':' :: cs => return (d.openGroup mode, cs)
  | ')' :: cs =>
    if flags.isEmpty then none
    else
      let level := { d.level with mode, parts := ⟨0, false⟩ :: d.level.parts }
      return ({ d with level }, cs)
  | _ => none

/-- What follows an opening parenthesis. -/
def readGroup (d : Draft) (cs : List Char) : Option (Draft × List Char) :=
  match d.level.mode.skip cs with
  | '?' :: '=' :: _ | '?' :: '!' :: _ => none
  | '?' :: '<' :: '=' :: _ | '?' :: '<' :: '!' :: _ => none
  | '?' :: 'P' :: '<' :: cs | '?' :: '<' :: cs => readName d cs
  | '?' :: cs => readFlagged d cs
  | cs => some (d.openGroup d.level.mode, cs)

/-! ### Whole patterns -/

/-- Takes one step. -/
def step (d : Draft) : List Char → Option (Draft × List Char)
  | [] => none
  | c :: cs =>
    match c with
    | '(' => readGroup d cs
    | ')' =>
      match d.outer with
      | [] => none
      | l :: outer => some ({ d with level := l.push (d.level.height + 1), outer }, cs)
    | '|' => some ({ d with level := d.level.alternate }, cs)
    | '[' => do
      let (height, cs) ← Bracket.read d.level.mode cs
      return ({ d with level := d.level.push height }, cs)
    | '?' | '*' | '+' => do
      return (← d.repeatLast, if cs.head? = some '?' then cs.drop 1 else cs)
    | '\x7b' => none
    | c => do
      let (a, cs) ← Atom.read d.level.mode c cs
      return (← d.pushAtom a, cs)

/-- Reads on to the end. -/
def readFrom (d : Draft) (cs : List Char) : Option Draft :=
  match d.level.mode.skip cs with
  | [] => some d
  | c :: more =>
    match step d (c :: more) with
    | none => none
    | some (d, rest) => if rest.length < cs.length then readFrom d rest else none
termination_by cs.length

/-- Whether a pattern can be used. -/
def check (cs : List Char) : Except Fault Unit :=
  match readFrom .start cs with
  | none => .error .malformed
  | some d =>
    if !d.outer.isEmpty || maxHeight < d.level.height then .error .malformed
    else if d.hasWordEdge then .error .wordEdge
    else .ok ()

end QueryPrep.Pattern
