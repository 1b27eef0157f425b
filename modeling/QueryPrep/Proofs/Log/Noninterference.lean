import QueryPrep.Proofs.Command.Run
import QueryPrep.Proofs.Config.Search

/-!
# Logging does not interfere with results

How a run logs is decided by the log settings and by three variables of the environment. It shows in
two places only: on the error output and in the log file. What a command prints and whether it
succeeds (`Command.shown`) depends on the clock, on the rows it is given and on whether it may write
its file, and none of these is disturbed by a log file that has been opened: no text of rows becomes
another one, except that a missing file may have become an empty one, which holds no rows either.

Main result: two runs of a command that differ in logging alone have the same status and the same
output, and leave the same bytes in every file but their log files
(`CommandLine.logging_does_not_interfere`).
-/

namespace QueryPrep

/-! ### What a command depends on -/

namespace Command

/-- What a command that was carried out shows: nothing if it has failed, otherwise whether it has
refused and what it prints. -/
def shown (a : Except CommandError Answer) : Option (Bool × String) :=
  a.toOption.map fun a => (a.refused, a.output)

/-- The files after a command. -/
def filesAfter (before : FileTree) : Except CommandError Answer → FileTree
  | .ok a => a.files
  | .error _ => before

/-- The rows that are given to a command. -/
def rows (w : World) (file : Option String) : Option (List Json.Value) :=
  ((source w file).bind readRows).toOption

/-- Where the file lies that a command writes, if there is one that it may write. -/
def target (t : FileTree) : Command → Option Location
  | .sample (some path) => (t.locateForWriting path).toOption
  | _ => none

/-- A command finds the same in two worlds. -/
structure FindsSame (c : Command) (w w' : World) : Prop where
  clock : w'.clock = w.clock
  rows : ∀ file, c = .compile file → rows w' file = rows w file
  target : c.target w'.files = c.target w.files

variable {c : Command} {w w' : World} {cap : Nat} {format : OutputFormat}

theorem target_congr {t t' : FileTree} (hsame : t.SameDirectories t') (c : Command) :
    c.target t' = c.target t := by
  cases c with
  | sample output =>
      cases output with
      | none => rfl
      | some path => exact hsame.toOption_locateForWriting path
  | _ => rfl

theorem shown_answerSplit (cap : Nat) (format : OutputFormat) (files files' : FileTree)
    (events events' : Refusal → List LogEvent) (split : Except Refusal (List Chunk)) :
    shown (.ok (answerSplit format cap files' events' split)) =
      shown (.ok (answerSplit format cap files events split)) := by
  rcases split with refusal | chunks <;> rfl

theorem shown_compile (file : Option String) : shown (carryOut w cap format (.compile file)) =
    (rows w file).map fun values =>
      let query := Query.compile (FilterRow.ofValues values)
      (false, match format with
        | .json => (Json.Value.object [("query", .string query)]).render ++ "\n"
        | .table => query ++ "\n") := by
  simp only [carryOut, rows, bind, Except.bind]
  rcases source w file with e | text
  · rfl
  · dsimp only
    rcases readRows text with e | values <;> rfl

theorem shown_sample (path : String) : shown (carryOut w cap format (.sample (some path))) =
    (target w.files (.sample (some path))).map fun _ =>
      (false, "Config written to " ++ path ++ "\n") := by
  simp only [carryOut, target, FileTree.write]
  rcases w.files.locateForWriting path with e | loc <;> rfl

/-- **A command that finds the same shows the same.** -/
theorem FindsSame.shown (h : c.FindsSame w w') :
    shown (carryOut w' cap format c) = shown (carryOut w cap format c) := by
  cases c with
  | split order =>
      simp only [carryOut, h.clock]
      rcases order.resolve w.clock with e | q
      · rfl
      · exact shown_answerSplit cap format _ _ _ _ (q.chunks cap)
  | splitLogs order =>
      simp only [carryOut, h.clock]
      rcases order.resolve w.clock with e | q
      · rfl
      · exact shown_answerSplit cap format _ _ _ _ (q.chunks cap)
  | compile file => rw [shown_compile, shown_compile, h.rows file rfl]
  | sample output =>
      cases output with
      | none => rfl
      | some path => rw [shown_sample, shown_sample, h.target]

theorem files_answerSplit (cap : Nat) (format : OutputFormat) (files : FileTree)
    (events : Refusal → List LogEvent) (split : Except Refusal (List Chunk)) :
    (answerSplit format cap files events split).files = files := by
  rcases split with refusal | chunks <;> rfl

/-- A command changes no file but the one it writes. -/
theorem filesAfter_carryOut : filesAfter w.files (carryOut w cap format c) =
    (c.target w.files).elim w.files fun loc => w.files.put loc Settings.sample.toUTF8 := by
  cases c with
  | split order =>
      simp only [carryOut]
      rcases order.resolve w.clock with e | q
      · rfl
      · exact files_answerSplit cap format w.files _ (q.chunks cap)
  | splitLogs order =>
      simp only [carryOut]
      rcases order.resolve w.clock with e | q
      · rfl
      · exact files_answerSplit cap format w.files _ (q.chunks cap)
  | compile file =>
      simp only [carryOut, bind, Except.bind]
      rcases source w file with e | text
      · rfl
      · dsimp only
        rcases readRows text with e | values <;> rfl
  | sample output =>
      cases output with
      | none => rfl
      | some path =>
          simp only [carryOut, target, FileTree.write]
          rcases w.files.locateForWriting path with e | loc <;> rfl

theorem FindsSame.bytesAt? (h : c.FindsSame w w') {loc : Location}
    (hsame : w'.files.bytesAt? loc = w.files.bytesAt? loc) :
    (filesAfter w'.files (carryOut w' cap format c)).bytesAt? loc =
      (filesAfter w.files (carryOut w cap format c)).bytesAt? loc := by
  rw [filesAfter_carryOut, filesAfter_carryOut, h.target]
  rcases c.target w.files with - | written
  · exact hsame
  · by_cases hloc : loc = written
    · subst hloc
      exact (FileTree.bytesAt?_put_self _ _ _).trans (FileTree.bytesAt?_put_self _ _ _).symm
    · exact (FileTree.bytesAt?_put_of_ne _ _ hloc).trans
        (hsame.trans (FileTree.bytesAt?_put_of_ne _ _ hloc).symm)

end Command

/-! ### A log file among the files -/

namespace Logging.Prepared

variable {logs : LogSettings} {w : World} {files : FileTree} {logging : Option Logging}

theorem sameDirectories (h : Prepared logs w.files files logging) :
    w.files.SameDirectories files := by
  cases h with
  | unchanged => exact .refl _
  | opened _ hopen _ => exact FileTree.sameDirectories_of_openForAppending hopen

/-- A log file is no source of rows, unless it was one before. -/
theorem rows (h : Prepared logs w.files files logging) (file : Option String) :
    Command.rows { w with files } file = Command.rows w file := by
  cases h with
  | unchanged => rfl
  | opened _ hopen _ =>
      rcases file with - | path
      · rfl
      · have hempty : (Command.readRows "").toOption = none := rfl
        simp only [Command.rows, Command.source]
        rcases hbefore : w.files.readText path with e | text
        · rcases hafter : files.readText path with e' | text
          · rfl
          · -- the file has been added to hold the log, and an empty text holds no rows
            obtain hread | rfl := FileTree.of_readText_openForAppending hopen hafter
            · rw [hbefore] at hread
              contradiction
            · exact hempty
        · rw [FileTree.readText_of_openForAppending hopen hbefore]

theorem findsSame (h : Prepared logs w.files files logging) (c : Command) :
    c.FindsSame w { w with files } :=
  ⟨rfl, fun file _ => h.rows file, Command.target_congr h.sameDirectories c⟩

/-- Every file but the log file is what it was. -/
theorem bytesAt? (h : Prepared logs w.files files logging) {loc : Location}
    (hloc : ∀ path, logs.file = some path → w.files.locateForWriting path ≠ .ok loc) :
    files.bytesAt? loc = w.files.bytesAt? loc := by
  cases h with
  | unchanged => rfl
  | opened hfile hopen _ =>
      refine FileTree.bytesAt?_of_openForAppending hopen fun heq => ?_
      exact hloc _ hfile (heq ▸ (FileTree.openForAppending_cases hopen).1)

/-- Events go to the log file or to the error output. -/
theorem sink (h : Prepared logs w.files files logging) {l : Logging} (hl : l ∈ logging)
    {loc : Location} (hsink : l.sink = .file loc) :
    ∃ path, logs.file = some path ∧ w.files.locateForWriting path = .ok loc := by
  cases h with
  | unchanged hsinks =>
      rw [hsinks l hl] at hsink
      contradiction
  | @opened path found _ _ hfile hopen hsink' =>
      obtain rfl := Option.some.inj hl
      obtain rfl := LogSink.file.inj (hsink'.symm.trans hsink)
      exact ⟨path, hfile, (FileTree.openForAppending_cases hopen).1⟩

end Logging.Prepared

/-! ### Outcomes -/

namespace Outcome

variable (o : Outcome) (time : String)

theorem status_tell : (o.tell time).status = o.status := by
  rw [tell]
  rcases o.logging with - | ⟨_, - | _, _⟩ <;> rfl

/-- No event is printed on the output. -/
theorem output_tell : (o.tell time).output = o.output := by
  rw [tell]
  rcases o.logging with - | ⟨_, - | _, _⟩ <;> rfl

/-- No event is written to a file but the one where events go. -/
theorem bytesAt?_tell {loc : Location} (hloc : ∀ l ∈ o.logging, l.sink ≠ .file loc) :
    (o.tell time).files.bytesAt? loc = o.files.bytesAt? loc := by
  rw [tell]
  rcases hlogging : o.logging with - | ⟨filter, - | found, format⟩
  · rfl
  · rfl
  · refine FileTree.bytesAt?_put_of_ne _ _ fun heq => ?_
    exact hloc _ hlogging (congrArg _ heq.symm)

end Outcome

/-! ### Runs -/

namespace Invocation

/-- The settings of a run before the environment is asked. -/
def loaded (i : Invocation) (w : World) : Except SettingsError Settings :=
  match i.settings with
  | some path => Settings.load w.files path
  | none => .ok (Settings.found w.files w.settingsHome)

/-- A run logs to the file at a location. -/
def LogsTo (i : Invocation) (w : World) (loc : Location) : Prop :=
  ∃ s path, i.settingsOf w = .ok s ∧ s.logging.file = some path ∧
    w.files.locateForWriting path = .ok loc

variable {i : Invocation} {w : World} {s : Settings}

theorem settingsOf_eq (i : Invocation) (w : World) :
    i.settingsOf w = (i.loaded w).map w.environment.override := by
  rw [settingsOf, loaded]
  rcases i.settings with - | path
  · exact congrArg Except.ok (Settings.search_eq _ _ _)
  · rfl

theorem settingsOf_of_loaded (h : i.loaded w = .ok s) :
    i.settingsOf w = .ok (w.environment.override s) := by
  rw [settingsOf_eq, h]
  rfl

/-- What is seen of a run is what is seen of its command in the files as they were found, unless
one looks into the log file. -/
theorem run_shown (h : i.settingsOf w = .ok s) :
    let a := i.command.carryOut w s.cap i.format
    (i.run w).status = (Command.shown a).elim 1 (fun seen => if seen.1 then 2 else 0) ∧
      (i.run w).output = (Command.shown a).elim "" Prod.snd ∧
      ∀ loc, ¬ i.LogsTo w loc →
        (i.run w).files.bytesAt? loc = (Command.filesAfter w.files a).bytesAt? loc := by
  intro a
  obtain ⟨files, logging, hprepared, hrun⟩ := run_of_settings h
  have hfinds := hprepared.findsSame i.command
  obtain ⟨hstatus, houtput, hfiles⟩ :
      (i.run w).status = (Command.shown a).elim 1 (fun seen => if seen.1 then 2 else 0) ∧
      (i.run w).output = (Command.shown a).elim "" Prod.snd ∧
      (i.run w).files = Command.filesAfter files
        (i.command.carryOut { w with files } s.cap i.format) := by
    rw [hrun, ← hfinds.shown]
    rcases i.command.carryOut { w with files } s.cap i.format with e | answer <;>
      exact ⟨rfl, rfl, rfl⟩
  refine ⟨hstatus, houtput, fun loc hloc => ?_⟩
  rw [hfiles]
  apply hfinds.bytesAt?
  apply hprepared.bytesAt?
  intro path hpath hlocate
  exact hloc ⟨s, path, h, hpath, hlocate⟩

/-- A run writes its events to its log file, if not on the error output. -/
theorem logsTo_of_sink (h : i.settingsOf w = .ok s) {l : Logging} (hl : l ∈ (i.run w).logging)
    {loc : Location} (hsink : l.sink = .file loc) : i.LogsTo w loc := by
  obtain ⟨files, logging, hprepared, hrun⟩ := run_of_settings h
  have hlogging : (i.run w).logging = logging := by
    rw [hrun]
    rcases i.command.carryOut { w with files } s.cap i.format with e | answer <;> rfl
  rw [hlogging] at hl
  obtain ⟨path, hpath, hlocate⟩ := hprepared.sink hl hsink
  exact ⟨s, path, h, hpath, hlocate⟩

/-- Events, written at any time, are seen in the log file and on the error output only. -/
structure EventsConfined (i : Invocation) (w : World) : Prop where
  status : ∀ time, ((i.run w).tell time).status = (i.run w).status
  output : ∀ time, ((i.run w).tell time).output = (i.run w).output
  files : ∀ time loc, ¬ i.LogsTo w loc →
    ((i.run w).tell time).files.bytesAt? loc = (i.run w).files.bytesAt? loc

theorem eventsConfined (h : i.settingsOf w = .ok s) : i.EventsConfined w where
  status := Outcome.status_tell _
  output := Outcome.output_tell _
  files _ _ hloc :=
    Outcome.bytesAt?_tell _ _ fun _ hl hsink => hloc (logsTo_of_sink h hl hsink)

/-- Two runs of one command that differ in logging alone: in the log settings, and in the three
variables of the environment that have to do with logging. What the command reads is the same. -/
structure DifferInLogging (i i' : Invocation) (w w' : World) : Prop where
  command : i'.command = i.command
  format : i'.format = i.format
  clock : w'.clock = w.clock
  input : w'.input = w.input
  directories : w.files.SameDirectories w'.files
  source : ∀ path, i.command = .compile (some path) → w'.files.read path = w.files.read path
  environment : ∀ name, name ∉ ["QUERYSPLIT_LOG_LEVEL", "QUERYSPLIT_LOG_FORMAT", "RUST_LOG"] →
    w'.environment name = w.environment name
  settings : ∃ s s', i.loaded w = .ok s ∧ i'.loaded w' = .ok s' ∧
    s'.cap = s.cap ∧ s'.service = s.service

namespace DifferInLogging

variable {i' : Invocation} {w' : World}

theorem findsSame (h : DifferInLogging i i' w w') : i.command.FindsSame w w' := by
  refine ⟨h.clock, fun file hfile => ?_, Command.target_congr h.directories _⟩
  rcases file with - | path
  · simp only [Command.rows, Command.source, h.input]
  · simp only [Command.rows, Command.source, FileTree.readText, h.source path hfile]

/-- Both runs find their settings, with the same cap. -/
theorem exists_settingsOf (h : DifferInLogging i i' w w') :
    ∃ s s', i.settingsOf w = .ok s ∧ i'.settingsOf w' = .ok s' ∧ s'.cap = s.cap := by
  obtain ⟨s, s', hs, hs', hcap, -⟩ := h.settings
  have hvariable := h.environment "QUERYSPLIT_MAX_CHUNK_COUNT" (by decide)
  refine ⟨_, _, settingsOf_of_loaded hs, settingsOf_of_loaded hs', ?_⟩
  simp only [Environment.override, Environment.number?, hvariable, hcap]

end DifferInLogging

end Invocation

namespace CommandLine

/-- **Logging does not interfere with results**: two runs that differ in logging alone succeed
alike, print the same, and leave the same in every file that is no log file of theirs; and events
are written to nothing but the error output and the log file. -/
theorem logging_does_not_interfere {words words' : List String} {i i' : Invocation} {w w' : World}
    (hread : read words = some (.invoke i)) (hread' : read words' = some (.invoke i'))
    (h : i.DifferInLogging i' w w') (time time' : String) :
    let o := (run words w).tell time
    let o' := (run words' w').tell time'
    o'.status = o.status ∧ o'.output = o.output ∧
      (∀ loc, ¬ i.LogsTo w loc → ¬ i'.LogsTo w' loc →
        w'.files.bytesAt? loc = w.files.bytesAt? loc →
        o'.files.bytesAt? loc = o.files.bytesAt? loc) ∧
      i.EventsConfined w ∧ i'.EventsConfined w' := by
  obtain ⟨s, s', hs, hs', hcap⟩ := h.exists_settingsOf
  have hevents := Invocation.eventsConfined hs
  have hevents' := Invocation.eventsConfined hs'
  obtain ⟨hstatus, houtput, hfiles⟩ := Invocation.run_shown hs
  obtain ⟨hstatus', houtput', hfiles'⟩ := Invocation.run_shown hs'
  rw [h.command, h.format, hcap] at hstatus' houtput' hfiles'
  rw [h.findsSame.shown] at hstatus' houtput'
  simp only [run, hread, hread']
  refine ⟨?_, ?_, fun loc hloc hloc' hsame => ?_, hevents, hevents'⟩
  · rw [hevents.status, hevents'.status, hstatus, hstatus']
  · rw [hevents.output, hevents'.output, houtput, houtput']
  · rw [hevents.files _ _ hloc, hevents'.files _ _ hloc', hfiles loc hloc, hfiles' loc hloc']
    exact h.findsSame.bytesAt? hsame

/-- The first run opens the missing file of rows as its log file, and the second one is asked for a
filter that cannot be read; the file of settings of the second run is left alone by both. -/
theorem logging_does_not_interfere_input :
    let files : FileTree := ⟨[(["w", "a"], "[logging]\nlevel = \"trace\"\nfile = \"rows\"".toUTF8),
      (["w", "b"], .empty)], [], ["w"]⟩
    let w : World := ⟨files, fun _ => none, none, .empty, ⟨0, 0⟩⟩
    let w' : World := { w with environment := .ofList [("RUST_LOG", "=")] }
    let o := (run ["traceql", "--file=rows", "--config=a"] w).tell ""
    let o' := (run ["traceql", "--file=rows", "--config=b"] w').tell ""
    o'.status = o.status ∧ o'.output = o.output ∧
      o'.files.bytesAt? ["w", "b"] = o.files.bytesAt? ["w", "b"] := by
  intro files w w' o o'
  let i : Invocation := ⟨.compile (some "rows"), some "a", .table⟩
  let i' : Invocation := ⟨.compile (some "rows"), some "b", .table⟩
  have hload : ∀ path s, (Settings.load files path).toOption = some s →
      Settings.load files path = .ok s :=
    fun path s h => Settings.load_eq_ok_iff.mpr (Settings.toOption_load_eq_some_iff.mp h)
  have hloaded : i.loaded w =
      .ok { Settings.standard with logging := ⟨"trace", .pretty, some "rows"⟩ } :=
    hload "a" _ (by decide +kernel)
  have hloaded' : i'.loaded w' = .ok .standard := hload "b" _ (by decide +kernel)
  have hdiffer : i.DifferInLogging i' w w' := {
    command := rfl
    format := rfl
    clock := rfl
    input := rfl
    directories := .refl _
    source := fun _ _ => rfl
    environment := by
      intro name hname
      have hne : (name == "RUST_LOG") = false := by simp_all
      simp [w, w', Environment.ofList, List.lookup_cons, hne]
    settings := ⟨_, _, hloaded, hloaded', rfl, rfl⟩ }
  have hread : read ["traceql", "--file=rows", "--config=a"] = some (.invoke i) := by
    decide +kernel
  have hread' : read ["traceql", "--file=rows", "--config=b"] = some (.invoke i') := by
    decide +kernel
  obtain ⟨hstatus, houtput, hfiles, -⟩ := logging_does_not_interfere hread hread' hdiffer "" ""
  refine ⟨hstatus, houtput, hfiles ["w", "b"] ?_ ?_ rfl⟩
  · rintro ⟨s, path, hs, hpath, hlocate⟩
    obtain rfl := Except.ok.inj ((Invocation.settingsOf_of_loaded hloaded).symm.trans hs)
    obtain rfl := Option.some.inj hpath
    have hrows : files.locateForWriting "rows" = .ok ["w", "rows"] := rfl
    exact absurd (Except.ok.inj (hrows.symm.trans hlocate)) (by decide)
  · rintro ⟨s, path, hs, hpath, -⟩
    obtain rfl := Except.ok.inj ((Invocation.settingsOf_of_loaded hloaded').symm.trans hs)
    cases hpath

end CommandLine

end QueryPrep
