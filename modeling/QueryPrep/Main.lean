import QueryPrep.Command.Run
import Std.Time.DateTime.Timestamp

/-!
# The program

Shows a run the part of the world that it can ask for, and carries its outcome out.
-/

namespace QueryPrep.Program

/-- The path of a location. -/
def pathOf (loc : Location) : String :=
  "/" ++ String.intercalate "/" loc

def isDirectory (path : String) : IO Bool := do
  try
    let _ ← IO.FS.realPath (path ++ "/.")
    return true
  catch _ => return false

def bytesOf? (path : String) : IO (Option ByteArray) := do
  try return some (← IO.FS.readBinFile path)
  catch _ => return none

/-- Adds what lies along a path. -/
def observe (t : FileTree) (path : String) : IO FileTree := do
  let mut t := t
  let mut loc := if path.toList.head? = some '/' then [] else t.workingDirectory
  for name in FileTree.components path do
    if name = "" ∨ name = "." then continue
    loc := if name = ".." then loc.dropLast else loc ++ [name]
    if ← isDirectory (pathOf loc) then
      t := { t with directories := loc :: t.directories }
    else if let some bytes ← bytesOf? (pathOf loc) then
      t := t.put loc bytes
  return t

/-- The variables that a run may look at. -/
def variableNames : List String := [
  "QUERYSPLIT_MAX_CHUNK_COUNT", "QUERYSPLIT_API_HOST", "QUERYSPLIT_API_PORT",
  "QUERYSPLIT_LOG_LEVEL", "QUERYSPLIT_LOG_FORMAT", LogFilter.variableName]

def environment : IO Environment := do
  let values ← variableNames.mapM fun name => do return (name, ← IO.getEnv name)
  return .ofList (values.filterMap fun (name, value) => value.map (name, ·))

/-- The user's directory for settings. -/
def settingsHome : IO (Option String) := do
  match ← IO.getEnv "XDG_CONFIG_HOME" with
  | some dir => if dir.toList.head? = some '/' then return some dir
  | none => pure ()
  return (← IO.getEnv "HOME").map (· ++ "/.config")

def now : IO Int := do
  return (← Std.Time.Timestamp.now).toMillisecondsSinceUnixEpoch.toInt

/-- The files that a command names. -/
def Command.paths : Command → List String
  | .compile file => file.toList
  | .sample output => output.toList
  | _ => []

/-- The world as a command can see it. The log file is known only when the settings are. -/
def worldFor (i : Invocation) (input : ByteArray) : IO World := do
  let home ← settingsHome
  let directory := (FileTree.components (← IO.currentDir).toString).filter (· ≠ "")
  let mut files : FileTree := ⟨[], [directory], directory⟩
  for path in i.settings.toList ++ Settings.candidates home ++ Command.paths i.command do
    files ← observe files path
  let w : World := ⟨files, ← environment, home, input, ⟨← now, ← now⟩⟩
  match (i.settingsOf w).toOption.bind (·.logging.file) with
  | some path => return { w with files := ← observe files path }
  | none => return w

/-- Writes the files that a run has changed; where one has only grown, the new bytes are added. -/
def saveChanges (before after : FileTree) : IO Unit := do
  for (loc, bytes) in after.files do
    match before.bytesAt? loc with
    | none => IO.FS.writeBinFile (pathOf loc) bytes
    | some old =>
      if bytes.data = old.data then continue
      if (bytes.extract 0 old.size).data = old.data then
        (← IO.FS.Handle.mk (pathOf loc) .append).write (bytes.extract old.size bytes.size)
      else IO.FS.writeBinFile (pathOf loc) bytes

def emit (before : FileTree) (o : Outcome) : IO UInt32 := do
  let o := o.tell (Timestamp.render (← now))
  saveChanges before o.files
  (← IO.getStdout).putStr o.output
  (← IO.getStderr).putStr o.errorOutput
  return o.status.toUInt32

/-- The standard input, if the command reads it. -/
def inputFor : Command → IO ByteArray
  | .compile none => do (← IO.getStdin).readBinToEnd
  | _ => return .empty

end QueryPrep.Program

open QueryPrep in
def main (words : List String) : IO UInt32 := do
  let w ← match CommandLine.read words with
    | some (.invoke i) => Program.worldFor i (← Program.inputFor i.command)
    | _ => pure ⟨⟨[], [], []⟩, fun _ => none, none, .empty, ⟨0, 0⟩⟩
  Program.emit w.files (CommandLine.run words w)
