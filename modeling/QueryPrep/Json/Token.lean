import QueryPrep.Json.Number
import QueryPrep.Text.Numeral

/-!
# Tokens of JSON texts

A text is cut into tokens from its front. A token that cannot be finished ends the text as
`Token.bad`; what was cut before it stands, because a document is judged by its first fault.

A string is kept even if it does not stand for characters, because of a broken byte or half a
surrogate pair: a reader that skips the string need not mind. Its content is then `none`.
-/

namespace QueryPrep.Json

open QueryPrep.Text (Marks)

inductive Token where
  | null
  | bool (b : Bool)
  | number (n : Numeral)
  /-- A string; its content is `none` if not all of it stands for characters. -/
  | string (content : Option String)
  | openArray
  | closeArray
  | openObject
  | closeObject
  | comma
  | colon
  /-- Something that is no token. -/
  | bad
deriving DecidableEq, Repr

namespace Token

/-- The white space of JSON. -/
def isSpace (m : Option Char) : Bool :=
  m = some ' ' || m = some '\n' || m = some '\t' || m = some '\r'

/-! ### Strings -/

/-- The value of four hexadecimal digits. -/
def hex4? (a b c d : Option Char) : Option Nat := do
  let digits := [← a, ← b, ← c, ← d]
  if digits.all Hexadecimal.isDigit then some (Hexadecimal.value digits) else none

/-- The character an escape of one letter stands for. -/
def escaped? : Option Char → Option Char
  | some '"' => some '"'
  | some '\\' => some '\\'
  | some '/' => some '/'
  | some 'b' => some '\x08'
  | some 'f' => some '\x0c'
  | some 'n' => some '\n'
  | some 'r' => some '\r'
  | some 't' => some '\t'
  | _ => none

/-- The content of a string that is being read: the characters so far, last one first (none if some
of it stands for no character), and the first half of a surrogate pair that waits for the second. -/
structure Content where
  chars : Option (List Char)
  half : Option Nat

namespace Content

/-- Nothing has been read. -/
def start : Content := ⟨some [], none⟩

/-- Adds a mark; a half before it remains alone. -/
def push (x : Content) (m : Option Char) : Content :=
  ⟨if x.half.isSome then none else (m.bind fun c => x.chars.map (c :: ·)), none⟩

/-- Adds a number of 16 bits, which may be half of a character. -/
def pushUnit (x : Content) (u : Nat) : Content :=
  if 0xD800 ≤ u ∧ u < 0xDC00 then ⟨if x.half.isSome then none else x.chars, some u⟩
  else if 0xDC00 ≤ u ∧ u < 0xE000 then
    match x.half with
    | some high =>
      ⟨x.chars.map (Char.ofNat (0x10000 + (high - 0xD800) * 0x400 + (u - 0xDC00)) :: ·), none⟩
    | none => ⟨none, none⟩
  else x.push (some (Char.ofNat u))

/-- The characters when the string is over. -/
def text (x : Content) : Option String :=
  if x.half.isSome then none else x.chars.map fun cs => String.ofList cs.reverse

end Content

/-- Reads a string behind its opening quote. -/
def quoted (x : Content) : Marks → Option (Option String × Marks)
  | [] => none
  | m :: s =>
    if m = some '"' then some (x.text, s)
    else if m = some '\\' then
      match s with
      | some 'u' :: a :: b :: c :: d :: s =>
        match hex4? a b c d with
        | some u => quoted (x.pushUnit u) s
        | none => none
      | e :: s =>
        match escaped? e with
        | some c => quoted (x.push (some c)) s
        | none => none
      | [] => none
    else if m.any (· < ' ') then none
    else quoted (x.push m) s

/-! ### Cutting -/

/-- The token that starts with a mark, with what follows it. -/
def cut (m : Option Char) (s : Marks) : Token × Marks :=
  match m with
  | some '[' => (openArray, s)
  | some ']' => (closeArray, s)
  | some '\x7b' => (openObject, s)
  | some '\x7d' => (closeObject, s)
  | some ',' => (comma, s)
  | some ':' => (colon, s)
  | some '"' =>
    match quoted .start s with
    | some (content, s) => (string content, s)
    | none => (bad, [])
  | some 'n' => if (Marks.ofString "ull").isPrefixOf s then (null, s.drop 3) else (bad, [])
  | some 't' => if (Marks.ofString "rue").isPrefixOf s then (bool true, s.drop 3) else (bad, [])
  | some 'f' => if (Marks.ofString "alse").isPrefixOf s then (bool false, s.drop 4) else (bad, [])
  | m =>
    match Numeral.scan (m :: s) with
    | some (n, s) => (number n, s)
    | none => (bad, [])

/-- Cuts a text into tokens, behind those cut already, last one first. -/
def lexOnto (before : List Token) : (fuel : Nat) → Marks → List Token
  | 0, _ => before.reverse
  | fuel + 1, s =>
    match s.dropWhile isSpace with
    | [] => before.reverse
    | m :: s =>
      let (t, s) := cut m s
      lexOnto (t :: before) fuel s

/-- The tokens of a text. Each takes at least one mark, so the length of the text is fuel enough. -/
def lex (s : Marks) : List Token :=
  lexOnto [] s.length s

end Token

end QueryPrep.Json
