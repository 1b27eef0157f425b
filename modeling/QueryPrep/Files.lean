/-!
# Files

The files and directories that a run can see, as a value: each file has its bytes, and a directory
is there if it is known or holds a file. A path is resolved from the working directory, one
component after the other, and every component but the last must lead to a directory.

`FileTree.put` changes the one file it names (`bytesAt?_put_self`, `bytesAt?_put_of_ne`).
-/

namespace QueryPrep

/-- Why a file cannot be used. -/
inductive FileError where
  | notFound
  | notDirectory
  | isDirectory
  | nameTooLong
  /-- The path has a null character in it. -/
  | nullInPath
  /-- The bytes are no text. -/
  | notText
deriving DecidableEq, Repr

namespace FileError

def message : FileError → String
  | notFound => "No such file or directory (os error 2)"
  | notDirectory => "Not a directory (os error 20)"
  | isDirectory => "Is a directory (os error 21)"
  | nameTooLong => "File name too long (os error 36)"
  | nullInPath => "file name contained an unexpected NUL byte"
  | notText => "stream did not contain valid UTF-8"

end FileError

/-- Where a file or a directory lies: the names from the root on. -/
abbrev Location := List String

/-- Files with their bytes, and the directories known besides those that hold a file. -/
structure FileTree where
  files : List (Location × ByteArray)
  directories : List Location
  /-- Where relative paths start. -/
  workingDirectory : Location

namespace FileTree

/-- The bytes of a file. -/
def bytesAt? (t : FileTree) (loc : Location) : Option ByteArray :=
  t.files.lookup loc

/-- There is a directory: the root, a known one, or one with something in it. -/
def IsDirectory (t : FileTree) (loc : Location) : Prop :=
  loc = [] ∨ (t.directories ++ t.files.map fun f => f.1.dropLast).any (loc.isPrefixOf ·) = true

instance (t : FileTree) (loc : Location) : Decidable (t.IsDirectory loc) :=
  inferInstanceAs (Decidable (_ ∨ _))

/-! ### Paths -/

/-- The names between the slashes of a path. -/
def components (path : String) : List String :=
  (path.toList.splitOn '/').map String.ofList

/-- Follows components from a location on. -/
def follow (t : FileTree) (loc : Location) : List String → Except FileError Location
  | [] => .ok loc
  | c :: cs =>
    if t.IsDirectory loc then
      if c = "" ∨ c = "." then follow t loc cs
      else if c = ".." then follow t loc.dropLast cs
      else if 255 < c.utf8ByteSize then .error .nameTooLong
      else follow t (loc ++ [c]) cs
    else if (t.bytesAt? loc).isSome then .error .notDirectory
    else .error .notFound

/-- The location of a path; whether anything is there is left open. -/
def locate (t : FileTree) (path : String) : Except FileError Location :=
  if '\x00' ∈ path.toList then .error .nullInPath
  else if path = "" then .error .notFound
  else if 4096 ≤ path.utf8ByteSize then .error .nameTooLong
  else t.follow (if path.toList.head? = some '/' then [] else t.workingDirectory) (components path)

/-! ### Reading -/

/-- Something is at a path. -/
def Exists (t : FileTree) (path : String) : Prop :=
  (t.locate path).toOption.any fun loc => decide (t.IsDirectory loc) || (t.bytesAt? loc).isSome

instance (t : FileTree) (path : String) : Decidable (t.Exists path) :=
  inferInstanceAs (Decidable (_ = true))

/-- The bytes of the file at a path. -/
def read (t : FileTree) (path : String) : Except FileError ByteArray := do
  let loc ← t.locate path
  if t.IsDirectory loc then .error .isDirectory
  else match t.bytesAt? loc with
    | some bytes => .ok bytes
    | none => .error .notFound

/-- The text of the file at a path. -/
def readText (t : FileTree) (path : String) : Except FileError String := do
  match String.fromUTF8? (← t.read path) with
  | some text => .ok text
  | none => .error .notText

/-! ### Writing -/

/-- The location of a path that a file is to be written at. Its directory must be there, and a path
that ends in a slash does not name a file. -/
def locateForWriting (t : FileTree) (path : String) : Except FileError Location := do
  let name := (path.toList.reverse.dropWhile (· = '/')).reverse
  let loc ← t.locate (if name.isEmpty then path else String.ofList name)
  if path.toList.getLast? = some '/' ∨ t.IsDirectory loc then .error .isDirectory
  else .ok loc

/-- Puts bytes at a location. -/
def put (t : FileTree) (loc : Location) (bytes : ByteArray) : FileTree :=
  { t with files := (loc, bytes) :: t.files.filter (·.1 ≠ loc) }

/-- Writes a file, in the place of the one that was there. -/
def write (t : FileTree) (path : String) (bytes : ByteArray) : Except FileError FileTree :=
  (t.locateForWriting path).map fun loc => t.put loc bytes

/-- Opens a file for appending: it is added, empty, if it was not there. -/
def openForAppending (t : FileTree) (path : String) : Except FileError (Location × FileTree) := do
  let loc ← t.locateForWriting path
  if (t.bytesAt? loc).isSome then .ok (loc, t) else .ok (loc, t.put loc .empty)

/-- Adds bytes behind those of a file. -/
def append (t : FileTree) (loc : Location) (bytes : ByteArray) : FileTree :=
  t.put loc ((t.bytesAt? loc).getD .empty ++ bytes)

/-! ### First facts -/

theorem bytesAt?_put_self (t : FileTree) (loc : Location) (bytes : ByteArray) :
    (t.put loc bytes).bytesAt? loc = some bytes := by
  simp [bytesAt?, put]

theorem bytesAt?_put_of_ne (t : FileTree) {loc other : Location} (bytes : ByteArray)
    (h : other ≠ loc) : (t.put loc bytes).bytesAt? other = t.bytesAt? other := by
  have hne : (other == loc) = false := by simpa using h
  simp only [bytesAt?, put, List.lookup_cons, hne]
  induction t.files with
  | nil => rfl
  | cons f fs ih =>
    rcases f with ⟨at_, content⟩
    by_cases hf : at_ = loc
    · subst hf
      simpa [List.lookup_cons, hne] using ih
    · cases ho : other == at_ <;> simp_all [List.lookup_cons]

end FileTree

end QueryPrep
