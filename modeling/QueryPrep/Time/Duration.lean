import QueryPrep.Millis
import QueryPrep.Text.Scan

/-!
# Durations

A duration is written as a bare number of milliseconds or as components, each an amount and the
name of its unit, without anything between them: `250`, `10s`, `1m30s`. Components add up, in any
order and as often as they like. Blanks around the text are ignored, blanks inside are not allowed.

A component whose amount alone is out of range is no component, so the text is refused as
malformed; a bare number or a sum that is out of range is refused as such. `TimeError` is what can
be wrong with the text of a duration or of an instant.
-/

namespace QueryPrep

/-- What is wrong with a text, and the text to blame. -/
inductive TimeError where
  /-- The text is no duration. -/
  | badDuration (text : String)
  /-- The text is no timestamp. -/
  | badTimestamp (text : String)
  /-- The text is well formed and its value is out of the range of milliseconds. -/
  | outOfRange (text : String)
deriving DecidableEq, Repr

namespace TimeError

/-- The text that could not be read. -/
def text : TimeError → String
  | badDuration t | badTimestamp t | outOfRange t => t

def message : TimeError → String
  | badDuration t => "Invalid duration: " ++ t
  | badTimestamp t => "Invalid timestamp: " ++ t
  | outOfRange t => "Value out of range: " ++ t

end TimeError

inductive TimeUnit where
  | millisecond
  | second
  | minute
  | hour
  | day
  | week
deriving DecidableEq, Repr

namespace TimeUnit

/-- The milliseconds in one unit. -/
def millis : TimeUnit → Nat
  | millisecond => 1
  | second => 1000
  | minute => 60000
  | hour => 3600000
  | day => 86400000
  | week => 604800000

def name : TimeUnit → List Char
  | millisecond => ['m', 's']
  | second => ['s']
  | minute => ['m']
  | hour => ['h']
  | day => ['d']
  | week => ['w']

/-- The unit whose name is in front of a text, and what follows the name. Milliseconds are tried
before minutes, because the name of minutes is the beginning of theirs. -/
def take? (cs : List Char) : Option (TimeUnit × List Char) :=
  [millisecond, second, minute, hour, day, week].findSome? fun u =>
    if u.name.isPrefixOf cs then some (u, cs.drop u.name.length) else none

theorem take?_eq_some {cs rest : List Char} {u : TimeUnit} (h : take? cs = some (u, rest)) :
    cs = u.name ++ rest := by
  obtain ⟨v, -, hv⟩ := List.exists_of_findSome?_eq_some h
  split at hv
  · rename_i hname
    cases hv
    exact (List.prefix_iff_eq_append.mp (List.isPrefixOf_iff_prefix.mp hname)).symm
  · contradiction

end TimeUnit

namespace Duration

/-- An amount of some unit. -/
structure Component where
  amount : Nat
  unit : TimeUnit
deriving DecidableEq, Repr

/-- The milliseconds of a component. -/
def Component.millis (c : Component) : Nat :=
  c.amount * c.unit.millis

/-- The number itself, if it is in range. -/
def inRange? (n : Nat) : Option Nat :=
  if n ≤ Millis.greatest then some n else none

theorem inRange?_eq_some_iff {n m : Nat} :
    inRange? n = some m ↔ m = n ∧ n ≤ Millis.greatest := by
  unfold inRange?
  split <;> grind

/-- The component in front of a text, and what follows it. -/
def component? (cs : List Char) : Option (Component × List Char) :=
  match Decimal.span cs with
  | ([], _) => none
  | (digits, rest) => do
    let amount ← inRange? (Decimal.value digits)
    let (unit, rest) ← TimeUnit.take? rest
    return (⟨amount, unit⟩, rest)

/-- A component is the digits of its amount, which is in range, and the name of its unit. -/
theorem component?_eq_some {cs rest : List Char} {c : Component}
    (h : component? cs = some (c, rest)) :
    (Decimal.span cs).1 ≠ [] ∧ c.amount = Decimal.value (Decimal.span cs).1 ∧
      c.amount ≤ Millis.greatest ∧ cs = (Decimal.span cs).1 ++ c.unit.name ++ rest := by
  unfold component? at h
  split at h
  · contradiction
  · rename_i digits behind hne hspan
    obtain ⟨amount, hamount, h⟩ := Option.bind_eq_some_iff.mp h
    obtain ⟨⟨u, rest'⟩, hu, h⟩ := Option.bind_eq_some_iff.mp h
    obtain ⟨rfl, hle⟩ := inRange?_eq_some_iff.mp hamount
    cases h
    rw [hspan]
    refine ⟨hne, rfl, hle, ?_⟩
    rw [List.append_assoc, ← TimeUnit.take?_eq_some hu]
    simpa only [hspan] using (Decimal.span_append cs).symm

theorem component?_length_lt {cs rest : List Char} {c : Component}
    (h : component? cs = some (c, rest)) : rest.length < cs.length := by
  obtain ⟨hne, -, -, hcs⟩ := component?_eq_some h
  have hpos := List.length_pos_iff.mpr hne
  have hlength := congrArg List.length hcs
  simp only [List.length_append] at hlength
  omega

/-- Reads a whole text as components. -/
def components? (cs : List Char) : Option (List Component) :=
  if cs = [] then some []
  else
    match _ : component? cs with
    | none => none
    | some (c, rest) => (components? rest).map (c :: ·)
termination_by cs.length
decreasing_by exact component?_length_lt ‹_›

/-- What components add up to, unless one of them or a sum is out of range. -/
def total? (l : List Component) : Option Nat :=
  l.foldlM (fun sum c => do inRange? ((← inRange? c.millis) + sum)) 0

/-- What a text without blanks around it stands for, if it is a duration: a number of milliseconds,
or nothing if it is out of range. -/
def value? (cs : List Char) : Option (Option Nat) :=
  match Decimal.readNat? cs with
  | some n => some (inRange? n)
  | none => if cs.isEmpty then none else (components? cs).map total?

/-- Reads a duration. -/
def parse (text : String) : Except TimeError Nat :=
  match value? (Text.trim text.toList) with
  | none => .error (.badDuration text)
  | some none => .error (.outOfRange text)
  | some (some n) => .ok n

end Duration

end QueryPrep
