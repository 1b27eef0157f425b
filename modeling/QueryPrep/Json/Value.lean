import QueryPrep.Json.Number

/-!
# JSON values

A value is what a document means: no number is out of range and every string is a text. The members
of an object stand in the order in which they were written; of several with one name the last
counts.

`Value.render` writes a value as compactly as JSON allows.
-/

namespace QueryPrep.Json

inductive Value where
  | null
  | bool (b : Bool)
  | number (n : Number)
  | string (s : String)
  | array (items : List Value)
  | object (members : List (String × Value))
deriving Inhabited, Repr

namespace Value

/-- An integer. -/
def int (n : Int) : Value :=
  .number (.integer n)

/-! ### Writing -/

/-- A digit from ten on is a lower-case letter. -/
def hexDigit (n : Nat) : Char :=
  if n < 10 then Char.ofNat (0x30 + n) else Char.ofNat (0x57 + n)

/-- A character inside a string: quote, backslash and the control characters are escaped. -/
def writeChar (c : Char) : List Char :=
  if c = '"' then ['\\', '"']
  else if c = '\\' then ['\\', '\\']
  else if c = '\n' then ['\\', 'n']
  else if c = '\r' then ['\\', 'r']
  else if c = '\t' then ['\\', 't']
  else if c = '\x08' then ['\\', 'b']
  else if c = '\x0c' then ['\\', 'f']
  else if c < ' ' then ['\\', 'u', '0', '0', hexDigit (c.toNat / 16), hexDigit (c.toNat % 16)]
  else [c]

def writeString (s : String) : List Char :=
  '"' :: s.toList.flatMap writeChar ++ ['"']

/-- A numeral as it was written. -/
def writeNumeral (n : Numeral) : List Char :=
  (if n.negative then ['-'] else []) ++ n.whole ++
    (n.fraction.elim [] fun ds => '.' :: ds) ++
    (n.exponent.elim [] fun e => 'e' :: (if e.1 then ['-'] else []) ++ e.2)

mutual

def write : Value → List Char
  | null => "null".toList
  | bool true => "true".toList
  | bool false => "false".toList
  | number (.integer n) => Decimal.write n
  | number (.real n) => writeNumeral n
  | string s => writeString s
  | array [] => ['[', ']']
  | array (v :: vs) => '[' :: write v ++ writeItems vs ++ [']']
  | object [] => ['\x7b', '\x7d']
  | object ((k, v) :: ms) =>
    '\x7b' :: writeString k ++ ':' :: write v ++ writeMembers ms ++ ['\x7d']

/-- The items behind the first one, each with the comma in front of it. -/
def writeItems : List Value → List Char
  | [] => []
  | v :: vs => ',' :: write v ++ writeItems vs

/-- The members behind the first one, each with the comma in front of it. -/
def writeMembers : List (String × Value) → List Char
  | [] => []
  | (k, v) :: ms => ',' :: writeString k ++ ':' :: write v ++ writeMembers ms

end

/-- The text of a value. -/
def render (v : Value) : String :=
  String.ofList v.write

end Value

end QueryPrep.Json
