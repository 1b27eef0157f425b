import QueryPrep.Text.Numeral
import QueryPrep.Text.Scan

/-!
# Lines, strings and keys in TOML

The parts of the notation that stand inside a line: white space, comments and the ends of lines;
the four kinds of strings; keys, bare or quoted, with dots between them.
-/

namespace QueryPrep.Toml

open QueryPrep.Text (Scan)
open QueryPrep.Text.Scan

/-- How deep arrays and tables in braces may be nested, and how many parts a key may have. -/
def maxLevels : Nat := 79

namespace Text

/-! ### Between the parts -/

/-- White space inside a line. -/
def isSpace (c : Char) : Bool :=
  c = ' ' || c = '\t'

/-- Characters that may stand unescaped in comments and strings: of the control characters only the
tab. -/
def isPlain (c : Char) : Bool :=
  c = '\t' || (' ' ≤ c && c ≠ '\x7f')

def spaces : Scan Unit := do
  let _ ← run isSpace

/-- The end of a line. -/
def newline : Scan Unit :=
  word ['\n'] <|> word ['\r', '\n']

def comment : Scan Unit := do
  word ['#']
  let _ ← run isPlain

/-- The rest of a line that is complete, up to the next line or the end of the text. -/
def lineEnd : Scan Unit := do
  spaces
  let _ ← optionally comment
  newline <|> atEnd

/-- White space, comments and ends of lines, as they may stand around the items of an array. -/
def gap : Scan Unit := do
  let _ ← many (newline <|> (do comment; newline) <|> (do let _ ← one isSpace))

/-! ### Strings -/

/-- The character with a code of a fixed number of hexadecimal digits. -/
def coded (width : Nat) : Scan Char := fun cs =>
  let ds := cs.take width
  let n := Hexadecimal.value ds
  if ds.length = width ∧ ds.all Hexadecimal.isDigit ∧ n.isValidChar then
    some (.ofNat n, cs.drop width)
  else none

/-- A character by its escape sequence. -/
def escape : Scan Char := do
  word ['\\']
  match ← one fun _ => true with
  | 'b' => return '\x08'
  | 't' => return '\t'
  | 'n' => return '\n'
  | 'f' => return '\x0c'
  | 'r' => return '\r'
  | '"' => return '"'
  | '\\' => return '\\'
  | 'u' => coded 4
  | 'U' => coded 8
  | _ => failure

/-- A string that ends at its quote. -/
def quotedBy (quote : Char) (piece : Scan Char) : Scan String := do
  word [quote]
  let (cs, _) ← upTo (word [quote]) piece
  return String.ofList cs

def basic : Scan String :=
  quotedBy '"' (escape <|> one fun c => isPlain c && c ≠ '\\')

def literal : Scan String :=
  quotedBy '\'' (one isPlain)

/-- The end of a string of several lines: three quotes, and up to two more that belong to it. -/
def tripleEnd (quote : Char) : Scan (List Char) := do
  word [quote, quote, quote]
  let first ← optionally (oneOf [quote])
  let second ← optionally (oneOf [quote])
  return first.toList ++ second.toList

/-- A string of several lines. An end of line at its beginning is not part of it, and the others
are all the same. -/
def tripled (quote : Char) (piece : Scan (List Char)) : Scan String := do
  word [quote, quote, quote]
  let _ ← optionally newline
  let (parts, quotes) ←
    upTo (tripleEnd quote) ((do newline; return ['\n']) <|> piece)
  return String.ofList (parts.flatten ++ quotes)

/-- A backslash at the end of a line, which takes the white space behind it away. -/
def continuation : Scan Unit := do
  word ['\\']
  spaces
  newline
  let _ ← many (newline <|> do let _ ← one isSpace)

def multilineBasic : Scan String :=
  tripled '"' <|
    (do continuation; return []) <|>
    (do return [← escape]) <|>
    (do return [← one fun c => isPlain c && c ≠ '\\'])

def multilineLiteral : Scan String :=
  tripled '\'' (do return [← one isPlain])

/-- A string of any kind. -/
def string : Scan String :=
  multilineBasic <|> basic <|> multilineLiteral <|> literal

/-! ### Keys -/

def isBare (c : Char) : Bool :=
  c.isAlphanum || c = '_' || c = '-'

/-- One part of a key. -/
def keyPart : Scan String := do
  spaces
  match ← ahead with
  | some '"' => basic
  | some '\'' => literal
  | _ =>
    let cs ← run isBare
    must (cs ≠ [])
    return String.ofList cs

/-- A key: the parts that lead to its table, and its name in there. -/
structure Key where
  path : List String
  name : String
deriving DecidableEq, Repr

/-- A key, with the white space around its parts. -/
def key : Scan Key := do
  let first ← keyPart
  spaces
  let more ← many do
    word ['.']
    let part ← keyPart
    spaces
    return part
  let parts := first :: more
  must (parts.length ≤ maxLevels)
  return ⟨parts.dropLast, parts.getLast (by simp [parts])⟩

end Text

end QueryPrep.Toml
