import QueryPrep.Log.Event
import QueryPrep.Log.FieldTest

/-!
# Log filters

A filter says how much is logged, as rules with commas between them. A rule is a level, a target, or
both with an equals sign between them; a target alone stands for all of its events. Behind its
target a rule may name, in brackets, the span that an event must lie in, and in braces inside of
them a field that it must have.

Rules are ordered by how special they are (`LogRule.compare`), the longest target first. The plain
rules are tried in this order, and the first one that is about an event decides. Where none is,
nothing is logged; so a filter without rules lets nothing through.

The rules that name a span or a field are kept beside them. No event of this program lies in a span,
so of these only a rule with a field and no value can matter, and that is a plain rule as well.
-/

namespace QueryPrep.Text

/-- The number of bytes that some characters take up. -/
def byteLength : List Char → Nat
  | [] => 0
  | c :: cs => c.utf8Size + byteLength cs

/-- The first `n` bytes of a text, and the rest. -/
def splitBytes : (n : Nat) → List Char → List Char × List Char
  | _, [] => ([], [])
  | n, c :: cs =>
    if c.utf8Size ≤ n then
      let (front, rest) := splitBytes (n - c.utf8Size) cs
      (c :: front, rest)
    else ([], c :: cs)

end QueryPrep.Text

namespace QueryPrep

inductive LogFilterError where
  /-- What stands behind the equals sign is no level. -/
  | badLevel
  /-- A rule is not formed as it should be. -/
  | badRule
  /-- The value of a field cannot be used as a pattern. -/
  | badField (fault : Pattern.Fault)
deriving DecidableEq, Repr

namespace LogFilterError

def message : LogFilterError → String
  | badLevel => "error parsing level filter: expected one of \"off\", \"error\", \"warn\", " ++
      "\"info\", \"debug\", \"trace\", or a number 0-5"
  | badRule => "invalid filter directive"
  | badField fault => "invalid field filter: " ++ fault.message

end LogFilterError

/-- One rule of a filter. -/
structure LogRule where
  level : LogLevel
  target : Option String
  span : Option String
  field : Option FieldTest
deriving DecidableEq, Repr

namespace LogRule

/-! ### Reading -/

/-- The level behind an equals sign; when nothing is there, all levels are meant. -/
def readLevel (cs : List Char) : Except LogFilterError LogLevel :=
  if cs.isEmpty then .ok .trace
  else match LogLevel.ofName? (String.ofList cs) with
    | some l => .ok l
    | none => .error .badLevel

/-- A rule may begin with a letter, a number, or one of three marks. -/
def isFirst (c : Char) : Bool :=
  Text.isAlphanumeric c || c = '-' || c = ':' || c = '_'

/-- Blanks around a rule are no part of its `shape`, which says where its parts lie, but they are
not taken off its text: the parts are cut from the text after the same numbers of bytes. So blanks
in front shift all parts, and no level can be read with a blank behind it.

This cuts off the part that is as long as some characters of the shape, and drops the marks behind
it, which take one byte each. -/
def cut (part : List Char) (marks : Nat) (text : List Char) : List Char × List Char :=
  let (front, rest) := Text.splitBytes (Text.byteLength part) text
  (front, (Text.splitBytes marks rest).2)

/-- What follows the brackets: nothing, or an equals sign and a level. -/
def readTail (shape text : List Char) : Except LogFilterError LogLevel :=
  match shape with
  | [] => .ok .trace
  | '=' :: _ => readLevel (cut [] 1 text).2
  | _ => .error .badRule

/-- What follows the opening bracket: a span, a field in braces, or both. -/
def readScope (target : Option String) (shape text : List Char) :
    Except LogFilterError LogRule :=
  let inSpan := shape.takeWhile fun c => c ≠ ']' && c ≠ '\x7b'
  let (span, text) := cut inSpan 1 text
  match shape.drop inSpan.length with
  | ']' :: shape => do
    return ⟨← readTail shape text, target, some (String.ofList span), none⟩
  | '\x7b' :: shape =>
    let inField := shape.takeWhile (· ≠ '\x7d')
    let (field, text) := cut inField 2 text
    match shape.drop inField.length with
    | '\x7d' :: shape => do
      if field.isEmpty then .error .badRule
      let test ← (FieldTest.read field).mapError .badField
      let ']' :: shape := shape | .error .badRule
      let span := if span.isEmpty then none else some (String.ofList span)
      return ⟨← readTail shape text, target, span, some test⟩
    | _ => .error .badRule
  | _ => .error .badRule

/-- Reads one rule. -/
def read (text : List Char) : Except LogFilterError LogRule :=
  match Text.trim text with
  | [] => .error .badRule
  | '[' :: shape => readScope none shape (cut [] 1 text).2
  | c :: shape =>
    if !isFirst c then .error .badRule
    else
      let inTarget := (c :: shape).takeWhile fun c => c ≠ '=' && c ≠ '['
      let (target, rest) := cut inTarget 1 text
      match (c :: shape).drop inTarget.length with
      | '[' :: shape => readScope (some (String.ofList target)) shape rest
      | '=' :: _ => do return ⟨← readLevel rest, some (String.ofList target), none, none⟩
      | _ =>
        .ok <| match LogLevel.ofName? (String.ofList text) with
          | some l => ⟨l, none, none, none⟩
          | none => ⟨.trace, some (String.ofList text), none, none⟩

/-! ### Order -/

/-- How two rules are ordered: the one that is more special comes first. -/
def compare (a b : LogRule) : Ordering :=
  let size (s : Option String) : Nat := s.elim 0 (·.utf8ByteSize + 1)
  let tests := match a.field, b.field with
    | some s, some t => s.compare t
    | _, _ => .eq
  (Ord.compare (size a.target) (size b.target)).then
    ((Ord.compare a.span.isSome b.span.isSome).then
    ((Ord.compare a.field.isSome b.field.isSome).then
    ((Ord.compare (a.target.getD "") (b.target.getD "")).then
    ((Ord.compare (a.span.getD "") (b.span.getD "")).then tests)))) |>.swap

/-- Puts a rule in its place among rules in order; it replaces the one that differs only in its
level. -/
def insert (r : LogRule) : List LogRule → List LogRule
  | [] => [r]
  | s :: rs =>
    match compare r s with
    | .lt => r :: s :: rs
    | .eq => r :: rs
    | .gt => s :: insert r rs

/-- Some rules in order; of several that differ only in their level the last one counts. -/
def arrange (rs : List LogRule) : List LogRule :=
  rs.foldl (fun sorted r => insert r sorted) []

/-! ### Use -/

/-- A rule that is about what lies around an event or about its values. -/
def IsSpecial (r : LogRule) : Prop :=
  r.span.isSome = true ∨ r.field.isSome = true

instance (r : LogRule) : Decidable r.IsSpecial :=
  inferInstanceAs (Decidable (_ ∨ _))

/-- A rule that can be decided without the values of an event and what lies around it. -/
def IsPlain (r : LogRule) : Prop :=
  r.span = none ∧ r.field.all (·.value.isNone) = true

instance (r : LogRule) : Decidable r.IsPlain :=
  inferInstanceAs (Decidable (_ ∧ _))

/-- A plain rule is about an event. -/
def Covers (r : LogRule) (e : LogEvent) : Prop :=
  r.target.all (·.toList.isPrefixOf e.target.toList) = true ∧
    r.field.all (fun f => String.ofList f.name ∈ "message" :: e.fields.map (·.1)) = true

instance (r : LogRule) (e : LogEvent) : Decidable (r.Covers e) :=
  inferInstanceAs (Decidable (_ ∧ _))

/-- The text of a rule. -/
def render (r : LogRule) : String :=
  let scope := if r.IsSpecial then
    "[" ++ r.span.getD "" ++
      (r.field.elim "" fun f => "\x7b" ++ String.ofList f.write ++ "\x7d") ++ "]" else ""
  let subject := r.target.getD "" ++ scope
  (if r.target.isSome || scope ≠ "" then subject ++ "=" else "") ++ r.level.name

end LogRule

/-! ### Filters -/

/-- A filter: its rules in order. -/
structure LogFilter where
  plain : List LogRule
  special : List LogRule
deriving DecidableEq, Repr

namespace LogFilter

/-- The filter of some rules. -/
def ofRules (rs : List LogRule) : LogFilter :=
  let (special, others) := rs.partition fun r => decide r.IsSpecial
  { plain := LogRule.arrange (others ++ special.filter fun r => decide r.IsPlain)
    special := LogRule.arrange special }

/-- Reads a filter. -/
def parse (text : String) : Except LogFilterError LogFilter := do
  let pieces := (text.toList.splitOn ',').filter (!·.isEmpty)
  return ofRules (← pieces.mapM LogRule.read)

/-- The text of a filter. -/
def render (f : LogFilter) : String :=
  String.intercalate "," ((f.plain ++ f.special).map LogRule.render)

/-- An event gets through: the first rule about it allows its level. -/
def Admits (f : LogFilter) (e : LogEvent) : Prop :=
  ∃ r ∈ f.plain.find? (fun r => decide (r.Covers e)), e.level.rank ≤ r.level.rank

instance (f : LogFilter) (e : LogEvent) : Decidable (f.Admits e) :=
  inferInstanceAs (Decidable (∃ r ∈ (_ : Option LogRule), _))

/-- The variable of the environment that may ask for a filter. -/
def variableName : String := "RUST_LOG"

/-- The filter in use: the one the environment asks for, if it can be read, otherwise the one of the
settings. -/
def choose (wanted : Option String) (level : String) : Except LogFilterError LogFilter :=
  match wanted.map parse with
  | some (.ok f) => .ok f
  | _ => parse level

end LogFilter

end QueryPrep
