/-!
# Media types

Whether the content type of a request says that the body is JSON. The value is read character by
character: a type, a slash, a subtype, and parameters behind semicolons. What is JSON is
`application/json`, also with a suffix, and every other application type with the suffix `+json`.
-/

namespace QueryPrep

/-- A media type; its parts are in small letters. -/
structure MediaType where
  kind : List Char
  subtype : List Char
  /-- What stands behind the last plus sign of the subtype. -/
  suffix : Option (List Char)
deriving DecidableEq, Repr

namespace MediaType

/-- The characters of names. -/
def isToken (c : Char) : Bool :=
  c.isAlphanum || c ∈ "!#$%&'*+-.^_`|~".toList

/-! ### Parameters -/

/-- Where in the parameters a character stands. -/
inductive Place where
  /-- In front of a name. -/
  | beforeName
  | name
  /-- Behind the equals sign. -/
  | beforeValue
  | value
  /-- Behind the opening quote. -/
  | opened
  | quoted
  /-- Behind the closing quote. -/
  | closed
deriving DecidableEq, Repr

namespace Place

/-- Characters that may stand between quotes. -/
def isQuotable (c : Char) : Bool :=
  ' ' ≤ c && c < '\x7f'

/-- The place behind a character, if it may stand here. -/
def next (p : Place) (c : Char) : Option Place :=
  match p with
  | beforeName => if c = ' ' then some beforeName else if isToken c then some name else none
  | name => if c = '=' then some beforeValue else if isToken c then some name else none
  | beforeValue => if c = '"' then some opened else if isToken c then some value else none
  | value => if c = ';' then some beforeName else if isToken c then some value else none
  | opened => if isQuotable c then some quoted else none
  | quoted => if c = '"' then some closed else if isQuotable c then some quoted else none
  | closed => if c = ';' then some beforeName else if c = ' ' then some closed else none

/-- The parameters may end here. -/
def mayEnd : Place → Bool
  | beforeName | beforeValue | value | closed => true
  | _ => false

end Place

/-- The text is well formed as parameters. -/
def areParameters (cs : List Char) : Bool :=
  (cs.foldlM Place.next .beforeName).any Place.mayEnd

/-! ### Types -/

/-- Divides a subtype at its last plus sign, which must not be its first character. -/
def divide (cs : List Char) : List Char × Option (List Char) :=
  let suffix := (cs.reverse.takeWhile (· ≠ '+')).reverse
  let front := cs.take (cs.length - suffix.length - 1)
  if front.isEmpty then (cs, none) else (front, some suffix)

/-- Reads a content type. -/
def parse (text : String) : Option MediaType :=
  let cs := text.toList.map Char.toLower
  let kind := cs.takeWhile isToken
  match cs.drop kind.length with
  | '/' :: cs =>
    let subtype := cs.takeWhile isToken
    let (front, suffix) := divide subtype
    let wellFormed := match cs.drop subtype.length with
      | [] => true
      | ';' :: cs => !subtype.isEmpty && areParameters cs
      | _ => false
    if kind.isEmpty || !wellFormed then none else some ⟨kind, front, suffix⟩
  | _ => none

/-- Bodies of this type are JSON. -/
def IsJson (m : MediaType) : Prop :=
  m.kind = "application".toList ∧ (m.subtype = "json".toList ∨ m.suffix = some "json".toList)

instance (m : MediaType) : Decidable m.IsJson :=
  inferInstanceAs (Decidable (_ ∧ _))

/-- A content type says that the body is JSON. -/
def AnnouncesJson (contentType : Option String) : Prop :=
  ∃ m ∈ contentType.bind parse, m.IsJson

instance (contentType : Option String) : Decidable (AnnouncesJson contentType) :=
  inferInstanceAs (Decidable (∃ m ∈ (_ : Option MediaType), _))

end MediaType

end QueryPrep
