import QueryPrep.Json.Node

/-!
# Records in JSON documents

A record is written as an object with its fields as members or as an array of its fields in order. A
`Shape` lists the fields and says how each is read into a draft and when a draft is a record.

Members may come in any order and unknown ones are skipped, but no field may be given twice. In an
array, fields at the end may be missing and nothing may follow the last one. The first fault in the
order of the text is the one that is reported.
-/

namespace QueryPrep.Json

/-- A field of a record that is drafted as a `σ`. -/
structure RecordField (σ : Type) where
  name : String
  /-- The draft has the field already. -/
  isFilled : σ → Bool
  read : Node → σ → Except Fault σ

/-- How a record is read. -/
structure Shape (σ α : Type) where
  fields : List (RecordField σ)
  empty : σ
  /-- The record of a draft; without a required field there is none. -/
  finish : σ → Option α

namespace Shape

variable {σ α : Type}

/-- Reads one member. -/
def readMember (fields : List (RecordField σ)) (key : Option String) (n : Node) (draft : σ) :
    Except Fault σ :=
  match key with
  | none => .error .malformed
  | some k =>
    match fields.find? (·.name = k) with
    | some f => if f.isFilled draft then .error .mismatch else f.read n draft
    | none => if n.isComplete then .ok draft else .error .malformed

/-- Reads members in the order of the text. -/
def readMembers (fields : List (RecordField σ)) :
    List (Option String × Node) → σ → Except Fault σ
  | [], draft => .ok draft
  | (k, n) :: ms, draft => do readMembers fields ms (← readMember fields k n draft)

/-- Reads items as the fields in order; true is returned if there were too many items. -/
def readItems : List (RecordField σ) → List Node → σ → Except Fault (σ × Bool)
  | _, [], draft => .ok (draft, false)
  | [], _ :: _, draft => .ok (draft, true)
  | f :: fs, n :: ns, draft => do readItems fs ns (← f.read n draft)

/-- The record of a draft. -/
def finishDraft (shape : Shape σ α) (draft : σ) : Except Fault α :=
  match shape.finish draft with
  | some a => .ok a
  | none => .error .mismatch

/-- Reads a record. -/
def read (shape : Shape σ α) : Node → Except Fault α
  | .object ms closed => do
    let draft ← readMembers shape.fields ms shape.empty
    if closed then shape.finishDraft draft else .error .malformed
  | .array items closed => do
    let (draft, tooMany) ← readItems shape.fields items shape.empty
    if !closed && items.length < shape.fields.length then .error .malformed
    else do
      let a ← shape.finishDraft draft
      if tooMany || !closed then .error .malformed else .ok a
  | n => .error n.unwanted

end Shape

/-! ### Single values -/

namespace Node

/-- A string. -/
def text : Node → Except Fault String
  | .string (some s) => .ok s
  | n => .error n.unwanted

/-- An integer between two bounds. -/
def integer (least greatest : Int) (n : Node) : Except Fault Int :=
  match n with
  | .number x =>
    match x.number? with
    | some (.integer i) => if least ≤ i ∧ i ≤ greatest then .ok i else .error .mismatch
    | some (.real _) => .error .mismatch
    | none => .error .malformed
  | n => .error n.unwanted

/-- A value that may be null instead. -/
def orNull {α : Type} (read : Node → Except Fault α) : Node → Except Fault (Option α)
  | .null => .ok none
  | n => some <$> read n

/-- One of several names, given as a string or as the only key of an object whose value is null.
Anything else in its place is no JSON of this form, so a wrong type is a malformed text. -/
def choice {α : Type} (ofName : String → Option α) : Node → Except Fault α
  | .string none => .error .malformed
  | .string (some s) => (ofName s).elim (.error .mismatch) .ok
  | .object ((some k, n) :: ms) closed =>
    match ofName k, n with
    | none, _ => .error .mismatch
    | some a, .null => if ms.isEmpty && closed then .ok a else .error .malformed
    | some _, n => .error n.unwanted
  | _ => .error .malformed

end Node

/-! ### Whole texts -/

/-- A text as a document and whether anything follows it. -/
structure Document where
  root : Node
  hasMore : Bool

namespace Document

/-- Reads a text as far as it goes. -/
def ofMarks (s : Text.Marks) : Document :=
  let (root, more) := Node.ofTokens (Token.lex s)
  ⟨root, !more.isEmpty⟩

/-- What a reader makes of a text that must hold one value and nothing else. -/
def read {α : Type} (reader : Node → Except Fault α) (text : String) : Except Fault α := do
  let doc := ofMarks (.ofString text)
  let a ← reader doc.root
  if doc.hasMore then .error .malformed else .ok a

end Document

end QueryPrep.Json
