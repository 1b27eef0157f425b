import QueryPrep.Command.Run
import QueryPrep.Proofs.Files

/-!
# A run with usable settings

Once the settings of a run are found, its command is carried out (`Invocation.run_of_settings`).
Logging may fail to be set up, but this only adds a complaint (`Settings.complaint`). Setting it up
may also add a log file (`Logging.Prepared`); the command still finds every text that could be read
before.
-/

namespace QueryPrep

variable {i : Invocation} {w : World} {s : Settings} {files : FileTree} {logging : Option Logging}

/-! ### Setting up logging -/

/-- What is there once logging has been set up, or could not be: the same files, or those with the
log file, which then is where events go. -/
inductive Logging.Prepared (logs : LogSettings) (before : FileTree) :
    FileTree → Option Logging → Prop
  | unchanged {logging : Option Logging} : (∀ l ∈ logging, l.sink = .errorOutput) →
      Prepared logs before before logging
  | opened {path : String} {loc : Location} {files : FileTree} {l : Logging} :
      logs.file = some path → before.openForAppending path = .ok (loc, files) →
      l.sink = .file loc → Prepared logs before files (some l)

namespace Logging.Prepared

variable {logs : LogSettings} {before : FileTree}

theorem of_setUp {wanted : Option String} {l : Logging}
    (h : setUp logs wanted before = .ok (l, files)) : Prepared logs before files (some l) := by
  simp only [setUp, bind, Except.bind, pure, Except.pure] at h
  rcases hfilter : LogFilter.choose wanted logs.level with e | filter
  · simp [hfilter, Except.mapError] at h
  · simp only [hfilter, Except.mapError] at h
    rcases hfile : logs.file with - | log
    · simp only [hfile] at h
      obtain ⟨rfl, rfl⟩ := Prod.ext_iff.mp (Except.ok.inj h)
      refine .unchanged ?_
      rintro _ ⟨⟩
      rfl
    · simp only [hfile] at h
      rcases hopen : before.openForAppending log with e | ⟨loc, opened⟩
      · simp [hopen] at h
      · simp only [hopen] at h
        obtain ⟨rfl, rfl⟩ := Prod.ext_iff.mp (Except.ok.inj h)
        exact .opened hfile hopen rfl

theorem readText (h : Prepared logs before files logging) {path text : String}
    (hread : before.readText path = .ok text) : files.readText path = .ok text := by
  cases h with
  | unchanged => exact hread
  | opened _ hopen _ => exact FileTree.readText_of_openForAppending hopen hread

end Logging.Prepared

/-! ### Settings -/

/-- A settings file that can be used has a path. -/
theorem Settings.ne_empty_of_loadWith {t : FileTree} {env : Environment} {path : String}
    (h : loadWith t env path = .ok s) : path ≠ "" := by
  rcases htext : t.readText path with e | text
  · simp [loadWith, load, htext, Except.map] at h
  · exact FileTree.ne_empty_of_readText htext

/-- What a run complains of before its command is carried out. -/
def Settings.complaint (s : Settings) (w : World) : String :=
  match Logging.setUp s.logging (w.environment LogFilter.variableName) w.files with
  | .ok _ => ""
  | .error e => "Failed to initialise logging: " ++ e.message ++ "\n"

namespace Invocation

/-- The settings are found if the file that was asked for can be used; without one there are always
some. -/
theorem exists_settingsOf (h : ∀ path ∈ i.settings, ∃ s,
    Settings.loadWith w.files w.environment path = .ok s) : ∃ s, i.settingsOf w = .ok s := by
  rw [settingsOf]
  rcases hpath : i.settings with - | path
  · exact ⟨_, rfl⟩
  · exact h path hpath

/-- **With usable settings the command is carried out**, under their cap and among the files that
are there once logging has been set up. -/
theorem run_of_settings (h : i.settingsOf w = .ok s) : ∃ files logging,
    Logging.Prepared s.logging w.files files logging ∧
      i.run w = match i.command.carryOut { w with files } s.cap i.format with
        | .ok a => .ofAnswer a logging (s.complaint w)
        | .error e => .failure files logging (s.complaint w) e := by
  rw [run, h, Settings.complaint]
  dsimp only
  rcases hset : Logging.setUp s.logging (w.environment LogFilter.variableName) w.files with
    e | ⟨l, files⟩
  · exact ⟨w.files, none, .unchanged (by rintro _ ⟨⟩), rfl⟩
  · exact ⟨files, some l, .of_setUp hset, rfl⟩

end Invocation

end QueryPrep
