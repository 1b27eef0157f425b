import QueryPrep.Split.Order

/-!
# The command line

A command line is options, the name of a command, and options again. The options that go with every
command may stand on either side of the name, and those behind it count. Each option has one value,
in the same word (`--step=10s`, `-fjson`, `-f=json`) or in the next one, which must not look like an
option then. No option may be given twice on one side.

`CommandLine.read` has no result for a line that is not formed like this.
-/

namespace QueryPrep

/-- How results are printed. -/
inductive OutputFormat where
  | table
  | json
deriving DecidableEq, Repr

namespace OutputFormat

def name : OutputFormat → String
  | table => "table"
  | json => "json"

def ofName? (s : String) : Option OutputFormat :=
  [table, json].find? (·.name = s)

end OutputFormat

/-- What a run is to do. -/
inductive Command where
  | split (order : MetricOrder)
  | splitLogs (order : LogOrder)
  /-- Compile the rows in a file, or those on the standard input. -/
  | compile (file : Option String)
  /-- Write the sample settings to a file, or print them. -/
  | sample (output : Option String)
deriving DecidableEq, Repr

/-- A command with the options that go with every command. -/
structure Invocation where
  command : Command
  /-- The settings file that was asked for. -/
  settings : Option String
  format : OutputFormat
deriving DecidableEq, Repr

inductive CommandLine where
  | version
  | invoke (i : Invocation)
deriving DecidableEq, Repr

namespace CommandLine

/-! ### Options -/

/-- An option by its long name, and by a letter if it has one. -/
structure Switch where
  name : String
  letter : Option Char
  Accepts : String → Bool

/-- An option with any value. -/
def textSwitch (name : String) : Switch :=
  ⟨name, none, fun _ => true⟩

/-- An option whose value is the path of a file. -/
def pathSwitch (name : String) (letter : Option Char) : Switch :=
  ⟨name, letter, (· ≠ "")⟩

/-- The options that go with every command. -/
def common : List Switch := [
  pathSwitch "config" (some 'c'),
  ⟨"format", some 'f', fun s => (OutputFormat.ofName? s).isSome⟩]

/-- What a word of the line is, as far as the word tells by itself. -/
inductive Word where
  /-- No option. -/
  | plain
  /-- Two dashes: no options follow. -/
  | endMark
  | version
  /-- An option with its value. -/
  | complete (s : Switch) (value : String)
  /-- An option whose value is the next word. -/
  | incomplete (s : Switch)
  /-- No option that is known here. -/
  | unknown

/-- An option with the value that stands in the same word, if one does. -/
def Word.ofSwitch? (s : Option Switch) (value : Option (List Char)) : Word :=
  match s, value with
  | none, _ => .unknown
  | some s, some v => .complete s (String.ofList v)
  | some s, none => .incomplete s

/-- The word among the given options; only where `top` holds the version can be asked for. -/
def word (top : Bool) (switches : List Switch) (text : String) : Word :=
  match text.toList with
  | ['-', '-'] => .endMark
  | '-' :: '-' :: cs =>
    let name := cs.takeWhile (· ≠ '=')
    if top ∧ cs = "version".toList then .version
    else .ofSwitch? (switches.find? (·.name.toList = name)) (cs.drop name.length).tail?
  | '-' :: c :: cs =>
    if top ∧ c = 'V' then .version
    else
      let value := match cs with
        | [] => none
        | '=' :: v => some v
        | v => some v
      .ofSwitch? (switches.find? (·.letter = some c)) value
  | _ => .plain

/-- A word that cannot be the value of the option in front of it. -/
def looksLikeOption (text : String) : Bool :=
  text.toList.head? = some '-' && text ≠ "-"

/-- The options read so far, with their values. -/
abbrev Given := List (String × String)

namespace Given

/-- Adds an option that is not there yet and accepts its value. -/
def add (g : Given) (s : Switch) (value : String) : Option Given :=
  if g.any (·.1 = s.name) || !s.Accepts value then none else some (g ++ [(s.name, value)])

def value? (g : Given) (name : String) : Option String :=
  g.lookup name

end Given

/-- What the words up to the next plain one come to. -/
inductive Reading where
  | version
  /-- Options, and the words that follow them. -/
  | options (g : Given) (rest : List String)

/-- Reads options. -/
def readOptions (top : Bool) (switches : List Switch) : List String → Given → Option Reading
  | [], g => some (.options g [])
  | w :: ws, g =>
    match word top switches w with
    | .plain => some (.options g (w :: ws))
    | .endMark => if ws.isEmpty then some (.options g []) else none
    | .version => some .version
    | .complete s v => (g.add s v).bind (readOptions top switches ws)
    | .incomplete s =>
      match ws with
      | v :: ws =>
        if looksLikeOption v then none else (g.add s v).bind (readOptions top switches ws)
      | [] => none
    | .unknown => none

/-! ### Commands -/

/-- How a command is read: its name, its own options, and what they make together. -/
structure Form where
  name : String
  switches : List Switch
  make : Given → Option Command

/-- The range of the options of a split. It ends now if nothing else is said. -/
def rangeOf (g : Given) : Option RangeOrder := do
  return ⟨.text (← g.value? "start"), .text ((g.value? "end").getD "now")⟩

/-- The commands. -/
def forms : List Form := [
  { name := "split"
    switches := [textSwitch "start", textSwitch "end", textSwitch "step", textSwitch "max-chunk"]
    make := fun g => do
      return .split ⟨← rangeOf g, .text (← g.value? "step"), .text (← g.value? "max-chunk")⟩ },
  { name := "split-logs"
    switches := [textSwitch "start", textSwitch "end", textSwitch "chunk"]
    make := fun g => do return .splitLogs ⟨← rangeOf g, .text (← g.value? "chunk")⟩ },
  { name := "traceql"
    switches := [pathSwitch "file" none]
    make := fun g => some (.compile (g.value? "file")) },
  { name := "config"
    switches := [pathSwitch "output" (some 'o')]
    make := fun g => some (.sample (g.value? "output")) }]

/-- A command with the options in front of its name and those behind it. -/
def invocation (form : Form) (before behind : Given) : Option Invocation := do
  let value? (name : String) := behind.value? name <|> before.value? name
  return {
    command := ← form.make behind
    settings := value? "config"
    format := ((value? "format").bind OutputFormat.ofName?).getD .table }

/-- Reads the words of a command line. -/
def read (words : List String) : Option CommandLine := do
  match ← readOptions true common words [] with
  | .version => return version
  | .options _ [] => none
  | .options before (name :: words) =>
    let form ← forms.find? (·.name = name)
    match ← readOptions false (form.switches ++ common) words [] with
    | .options behind [] => return invoke (← invocation form before behind)
    | _ => none

end CommandLine

end QueryPrep
