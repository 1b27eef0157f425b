import QueryPrep.Json.Token
import QueryPrep.Json.Value

/-!
# Documents as far as they can be read

A text that is no JSON may still have been refused for what stands in front of its first fault. So
the tokens of a text are built into a `Node`: a tree that ends where the text stops making sense.
Readers walk it in the order of the text and report what they meet first: `Fault.malformed` where
the text is broken and `Fault.mismatch` where it holds something else than was wanted.

`Node.ofTokens` keeps the open containers on a stack, so no nesting is too deep for it. A value that
is kept (`Node.keep`) is limited to 127 levels; what is skipped is not.
-/

namespace QueryPrep.Json

/-- Why a document was refused. -/
inductive Fault where
  /-- The text is no JSON at this place. -/
  | malformed
  /-- What stands at this place is not what was wanted. -/
  | mismatch
deriving DecidableEq, Repr

/-- A value as far as it can be read. An incomplete child is the last one. -/
inductive Node where
  | null
  | bool (b : Bool)
  | number (n : Numeral)
  | string (content : Option String)
  | array (items : List Node) (closed : Bool)
  | object (members : List (Option String × Node)) (closed : Bool)
  | broken
deriving Repr

namespace Node

/-! ### Building -/

/-- A container that is open, with what it holds so far, last one first. -/
inductive Frame where
  | array (items : List Node)
  /-- `key` is the key of the member whose value is being read. -/
  | object (members : List (Option String × Node)) (key : Option String)

/-- What may come next. -/
inductive Place where
  /-- A value, or the end of an array that has just been opened. -/
  | value (mayClose : Bool)
  /-- A key, or the end of an object that has just been opened. -/
  | key (mayClose : Bool)
  | colon
  /-- A comma or the end of the container. -/
  | next

/-- What lies around the place where the text goes on, from the innermost container outwards. -/
structure Context where
  frames : List Frame
  place : Place

/-- The tree that is left when the text ends inside a container. -/
def cutOff (inner : Node) : List Frame → Node
  | [] => inner
  | .array items :: fs => cutOff (.array (inner :: items).reverse false) fs
  | .object ms k :: fs => cutOff (.object ((k, inner) :: ms).reverse false) fs

/-- The tree that is left when the text ends here. -/
def Context.giveUp (x : Context) : Node :=
  match x.place, x.frames with
  | .value _, fs | .colon, fs => cutOff .broken fs
  | .key _, .object ms _ :: fs => cutOff (.object ms.reverse false) fs
  | .next, .array items :: fs => cutOff (.array items.reverse false) fs
  | .next, .object ms _ :: fs => cutOff (.object ms.reverse false) fs
  | _, fs => cutOff .broken fs

/-- Puts a complete value into the innermost container; a value outside of all is the result. -/
def settle (n : Node) : List Frame → Context ⊕ Node
  | [] => .inr n
  | .array items :: fs => .inl ⟨.array (n :: items) :: fs, .next⟩
  | .object ms k :: fs => .inl ⟨.object ((k, n) :: ms) none :: fs, .next⟩

/-- A token that is a value by itself. -/
def scalar? : Token → Option Node
  | .null => some null
  | .bool b => some (bool b)
  | .number n => some (number n)
  | .string s => some (string s)
  | _ => none

/-- Takes a value that begins with a token. -/
def beginValue (fs : List Frame) (t : Token) : Context ⊕ Node :=
  match t with
  | .openArray => .inl ⟨.array [] :: fs, .value true⟩
  | .openObject => .inl ⟨.object [] none :: fs, .key true⟩
  | t =>
    match scalar? t with
    | some n => settle n fs
    | none => .inr (cutOff broken fs)

/-- Takes one token. -/
def step (x : Context) (t : Token) : Context ⊕ Node :=
  match x.place, x.frames, t with
  | .value true, .array items :: fs, .closeArray => settle (array items.reverse true) fs
  | .value _, fs, t => beginValue fs t
  | .key true, .object ms _ :: fs, .closeObject => settle (object ms.reverse true) fs
  | .key _, .object ms _ :: fs, .string k => .inl ⟨.object ms k :: fs, .colon⟩
  | .colon, fs, .colon => .inl ⟨fs, .value false⟩
  | .next, .array items :: fs, .comma => .inl ⟨.array items :: fs, .value false⟩
  | .next, .object ms k :: fs, .comma => .inl ⟨.object ms k :: fs, .key false⟩
  | .next, .array items :: fs, .closeArray => settle (array items.reverse true) fs
  | .next, .object ms _ :: fs, .closeObject => settle (object ms.reverse true) fs
  | _, _, _ => .inr x.giveUp

/-- Goes on from a place, to the end of the value and the tokens behind it. -/
def build (x : Context) : List Token → Node × List Token
  | [] => (x.giveUp, [])
  | t :: ts =>
    match step x t with
    | .inl x => build x ts
    | .inr n => (n, ts)

/-- The value in front of the tokens and what follows it. -/
def ofTokens (ts : List Token) : Node × List Token :=
  build ⟨[], .value false⟩ ts

/-! ### Walking -/

/-- Nothing in the text of this value is broken, so it can be skipped. -/
def isComplete : Node → Bool
  | array _ closed => closed
  | object _ closed => closed
  | broken => false
  | _ => true

/-- The fault of a value that was not wanted here: a single token must still be sound in itself, a
container is refused at its bracket. -/
def unwanted : Node → Fault
  | number n => if n.number?.isSome then .mismatch else .malformed
  | string s => if s.isSome then .mismatch else .malformed
  | broken => .malformed
  | _ => .mismatch

mutual

/-- A value to be kept, whole and at most `levels` containers deep. -/
def keep (levels : Nat) : Node → Option Value
  | null => some .null
  | bool b => some (.bool b)
  | number n => n.number?.map .number
  | string s => s.map .string
  | array items true => if levels = 0 then none else (keepItems (levels - 1) items).map .array
  | object members true =>
    if levels = 0 then none else (keepMembers (levels - 1) members).map .object
  | _ => none

def keepItems (levels : Nat) : List Node → Option (List Value)
  | [] => some []
  | n :: ns =>
    match keep levels n with
    | none => none
    | some v => (keepItems levels ns).map (v :: ·)

def keepMembers (levels : Nat) : List (Option String × Node) → Option (List (String × Value))
  | [] => some []
  | (k, n) :: ms =>
    match k, keep levels n with
    | some k, some v => (keepMembers levels ms).map ((k, v) :: ·)
    | _, _ => none

end

/-- How deep a value may be nested that is kept. -/
def maxLevels : Nat := 127

end Node

namespace Value

/-- Of several members with one key the last one. -/
def lastMembers {κ α : Type} [DecidableEq κ] : List (κ × α) → List (κ × α)
  | [] => []
  | (k, a) :: ms => if ms.any (·.1 = k) then lastMembers ms else (k, a) :: lastMembers ms

mutual

/-- A value as a document of its own. -/
def toNode : Value → Node
  | null => .null
  | bool b => .bool b
  | number (.integer n) => .number ⟨n < 0, Decimal.digits n.natAbs, none, none⟩
  | number (.real n) => .number n
  | string s => .string (some s)
  | array vs => .array (toNodes vs) true
  | object ms => .object (lastMembers (toMembers ms)) true

def toNodes : List Value → List Node
  | [] => []
  | v :: vs => v.toNode :: toNodes vs

def toMembers : List (String × Value) → List (Option String × Node)
  | [] => []
  | (k, v) :: ms => (some k, v.toNode) :: toMembers ms

end

end Value

end QueryPrep.Json
