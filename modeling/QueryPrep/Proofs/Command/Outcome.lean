import QueryPrep.Proofs.Command.Result

/-!
# A run prints its whole result or nothing

The status of a run tells what became of its command: 1 if it failed, 2 if it refused, 0 if it is
done. Whatever can fail fails before anything is printed, and before the file is touched that the
command was to write: this file is written last, in a directory that is there, so that a path that
cannot be written is one where nothing can be read either (`FileTree.toOption_read`).

The log file is another matter. It is opened before the command is carried out, also if the command
then fails; so it is left out where files are said to be unchanged.

Main result: a run that fails has printed nothing and changed nothing but its log file; a run that
refuses complains, with the cap; a run that succeeds has printed all of its result; and what is
printed in JSON is one line (`CommandLine.output_all_or_nothing`).
-/

namespace QueryPrep

open QueryPrep.Json

variable {i : Invocation} {w : World} {s : Settings} {loc : Location}

/-! ### Telling events -/

namespace Outcome

variable (o : Outcome) (time : String)

/-- Events on the error output stand in front of what is there. -/
theorem exists_errorOutput_tell :
    ∃ before, (o.tell time).errorOutput = before ++ o.errorOutput := by
  rw [tell]
  rcases o.logging with - | ⟨filter, - | loc, format⟩
  · exact ⟨"", String.empty_append.symm⟩
  · exact ⟨_, rfl⟩
  · exact ⟨"", String.empty_append.symm⟩

/-- Where nothing is told every file stays as it is, the log file among them. -/
theorem bytesAt?_tell_of_events {bytes : ByteArray} (hevents : o.events = [])
    (hbytes : o.files.bytesAt? loc = some bytes) :
    (o.tell time).files.bytesAt? loc = some bytes := by
  rw [tell, hevents]
  rcases o.logging with - | ⟨filter, - | found, format⟩
  · exact hbytes
  · exact hbytes
  · by_cases hloc : loc = found
    · -- nothing is put behind the bytes that are there
      subst hloc
      refine (FileTree.bytesAt?_put_self _ _ _).trans ?_
      rw [hbytes]
      exact congrArg some ByteArray.append_empty
    · exact (FileTree.bytesAt?_put_of_ne _ _ hloc).trans hbytes

end Outcome

/-! ### Files after a run -/

namespace Invocation

/-- A run adds or changes its log file, and then the file that its command writes. -/
theorem files_run (h : i.settingsOf w = .ok s) : ∃ files logging,
    Logging.Prepared s.logging w.files files logging ∧
      (i.run w).files = (i.command.target w.files).elim files fun loc =>
        files.put loc Settings.sample.toUTF8 := by
  obtain ⟨files, logging, hprepared, hrun⟩ := run_of_settings h
  refine ⟨files, logging, hprepared, ?_⟩
  have hfiles : (i.run w).files =
      Command.filesAfter files (i.command.carryOut { w with files } s.cap i.format) := by
    rw [hrun]
    rcases i.command.carryOut { w with files } s.cap i.format with e | a <;> rfl
  -- the log file has not moved the place that the command writes to
  have htarget : i.command.target files = i.command.target w.files :=
    Command.target_congr hprepared.sameDirectories i.command
  rw [hfiles, ← htarget]
  exact Command.filesAfter_carryOut

theorem isDirectory_of_target {t : FileTree} {c : Command} (h : c.target t = some loc) :
    t.IsDirectory loc.dropLast := by
  rcases c with order | order | file | - | path
  · cases h
  · cases h
  · cases h
  · cases h
  · exact FileTree.isDirectory_dropLast_of_locateForWriting (toOption_eq_some_iff.mp h)

theorem sameDirectories_run (h : i.settingsOf w = .ok s) :
    w.files.SameDirectories (i.run w).files := by
  obtain ⟨files, logging, hprepared, hfiles⟩ := files_run h
  have hsame := hprepared.sameDirectories
  rw [hfiles]
  rcases htarget : i.command.target w.files with - | loc
  · exact hsame
  · have hdir := (hsame.isDirectory_iff _).mpr (isDirectory_of_target htarget)
    exact hsame.trans (FileTree.sameDirectories_put _ hdir)

/-- Writing events adds no directory: the log file has been opened. -/
theorem sameDirectories_tell (h : i.settingsOf w = .ok s) (time : String) :
    w.files.SameDirectories ((i.run w).tell time).files := by
  have hsame := sameDirectories_run h
  rw [Outcome.tell]
  rcases hlogging : (i.run w).logging with - | ⟨filter, - | loc, format⟩
  · exact hsame
  · exact hsame
  · have hlogs : i.LogsTo w loc := logsTo_of_sink h hlogging rfl
    obtain ⟨-, path, -, -, hlocate⟩ := hlogs
    -- the place was found among the files before the run, and the directories are the same
    have hdir := FileTree.isDirectory_dropLast_of_locateForWriting hlocate
    exact hsame.trans (FileTree.sameDirectories_put _ ((hsame.isDirectory_iff _).mpr hdir))

/-- What is read at a path after a run is what then lies where one would have written before. -/
theorem toOption_read_tell (h : i.settingsOf w = .ok s) (time path : String) :
    (((i.run w).tell time).files.read path).toOption =
      (w.files.locateForWriting path).toOption.bind ((i.run w).tell time).files.bytesAt? := by
  rw [FileTree.toOption_read, (sameDirectories_tell h time).toOption_locateForWriting]

/-- The sample settings are written last. -/
theorem bytesAt?_run {path : String} (h : i.settingsOf w = .ok s)
    (hcommand : i.command = .sample (some path))
    (hlocate : w.files.locateForWriting path = .ok loc) :
    (i.run w).files.bytesAt? loc = some Settings.sample.toUTF8 := by
  obtain ⟨files, logging, -, hfiles⟩ := files_run h
  have htarget : i.command.target w.files = some loc := by
    rw [hcommand, Command.target, hlocate]
    rfl
  rw [hfiles, htarget]
  exact FileTree.bytesAt?_put_self _ _ _

/-- Writing the sample settings is no event. -/
theorem events_run {path : String} (hcommand : i.command = .sample (some path)) :
    (i.run w).events = [] := by
  rcases h : i.settingsOf w with e | s
  · rw [run, h]
    rfl
  · obtain ⟨files, logging, -, hrun⟩ := run_of_settings h
    rw [hrun, hcommand, Command.carryOut]
    rcases FileTree.write files path Settings.sample.toUTF8 with e | written
    · rfl
    · cases logging <;> rfl

/-! ### The three outcomes -/

/-- A run has failed: nothing is printed, no file is added or changed but the log file, and at the
path of a file that was to be written there is what was there before. -/
structure Fails (i : Invocation) (w : World) (o : Outcome) : Prop where
  output : o.output = ""
  files : ∀ loc, ¬ i.LogsTo w loc → o.files.bytesAt? loc = w.files.bytesAt? loc
  target : ∀ path, i.command = .sample (some path) →
    (o.files.read path).toOption = (w.files.read path).toOption

/-- A run has refused: the range of its order cannot be split under the cap of its settings, and
the last thing that it complains of is this, with the cap. -/
structure Refuses (i : Invocation) (w : World) (o : Outcome) : Prop where
  output : o.output = i.format.refusal
  complaint : ∃ s before, i.settingsOf w = .ok s ∧ i.command.Refuses w s.cap ∧
    o.errorOutput = before ++ Command.refusalComplaint s.cap

/-- A run is done: the whole result is printed, or the whole file written. -/
structure Completes (i : Invocation) (w : World) (o : Outcome) : Prop where
  output : ∃ s, i.settingsOf w = .ok s ∧ i.command.Completes w s.cap i.format o.output
  target : ∀ path, i.command = .sample (some path) →
    o.files.read path = .ok Settings.sample.toUTF8

variable {time : String}

theorem status_tell (h : i.settingsOf w = .ok s) : ((i.run w).tell time).status =
    (Command.shown (i.command.carryOut w s.cap i.format)).elim 1
      fun seen => if seen.1 then 2 else 0 := by
  rw [(eventsConfined h).status, (run_shown h).1]

theorem output_tell (h : i.settingsOf w = .ok s) : ((i.run w).tell time).output =
    (Command.shown (i.command.carryOut w s.cap i.format)).elim "" Prod.snd := by
  rw [(eventsConfined h).output, (run_shown h).2.1]

/-- Without settings nothing is done at all. -/
theorem fails_of_settingsOf {e : SettingsError} (h : i.settingsOf w = .error e) :
    ((i.run w).tell time).status = 1 ∧ i.Fails w ((i.run w).tell time) := by
  have hrun : (i.run w).tell time = .failure w.files none "" (.settings e) := by
    rw [run, h]
    rfl
  rw [hrun]
  exact ⟨rfl, rfl, fun _ _ => rfl, fun _ _ => rfl⟩

theorem fails_of_shown (h : i.settingsOf w = .ok s)
    (hshown : Command.shown (i.command.carryOut w s.cap i.format) = none) :
    ((i.run w).tell time).status = 1 ∧ i.Fails w ((i.run w).tell time) := by
  refine ⟨?_, ?_, fun loc hloc => ?_, fun path hpath => ?_⟩
  · rw [status_tell h, hshown]
    rfl
  · rw [output_tell h, hshown]
    rfl
  · rw [(eventsConfined h).files _ _ hloc, (run_shown h).2.2 loc hloc,
      Command.filesAfter_of_shown_eq_none _ hshown]
  · -- the path leads to no place where a file could be, then as before
    have hplace : (w.files.locateForWriting path).toOption = none := by
      rw [hpath, Command.shown_sample, Option.map_eq_none_iff] at hshown
      exact hshown
    rw [toOption_read_tell h, FileTree.toOption_read, hplace]
    rfl

/-- A refusal is complained of behind what logging has complained of. -/
theorem errorOutput_run {output : String} (h : i.settingsOf w = .ok s)
    (hshown : Command.shown (i.command.carryOut w s.cap i.format) = some (true, output)) :
    (i.run w).errorOutput = s.complaint w ++ Command.refusalComplaint s.cap := by
  obtain ⟨files, logging, hprepared, hrun⟩ := run_of_settings h
  -- the command has seen the files with the log file among them, which makes no difference to it
  rw [← (hprepared.findsSame i.command).shown] at hshown
  rw [hrun]
  rcases hcarry : i.command.carryOut { w with files } s.cap i.format with e | a
  · rw [hcarry] at hshown
    cases hshown
  · rw [hcarry] at hshown
    have hrefused : a.refused = true := congrArg Prod.fst (Option.some.inj hshown)
    exact congrArg (s.complaint w ++ ·) (Command.complaint_of_refused hcarry hrefused)

theorem refuses_of_shown (h : i.settingsOf w = .ok s)
    (hshown : Command.shown (i.command.carryOut w s.cap i.format) = some (true, i.format.refusal))
    (hrefuses : i.command.Refuses w s.cap) :
    ((i.run w).tell time).status = 2 ∧ i.Refuses w ((i.run w).tell time) := by
  refine ⟨?_, ?_, ?_⟩
  · rw [status_tell h, hshown]
    rfl
  · rw [output_tell h, hshown]
    rfl
  · obtain ⟨before, hbefore⟩ := (i.run w).exists_errorOutput_tell time
    rw [errorOutput_run h hshown, ← String.append_assoc] at hbefore
    exact ⟨s, _, h, hrefuses, hbefore⟩

theorem completes_of_shown {output : String} (h : i.settingsOf w = .ok s)
    (hshown : Command.shown (i.command.carryOut w s.cap i.format) = some (false, output))
    (hcompletes : i.command.Completes w s.cap i.format output) :
    ((i.run w).tell time).status = 0 ∧ i.Completes w ((i.run w).tell time) := by
  have houtput : ((i.run w).tell time).output = output := by
    rw [output_tell h, hshown]
    rfl
  refine ⟨?_, ⟨s, h, houtput ▸ hcompletes⟩, fun path hpath => ?_⟩
  · rw [status_tell h, hshown]
    rfl
  · rw [hpath] at hcompletes
    obtain ⟨loc, hlocate⟩ : ∃ loc, w.files.locateForWriting path = .ok loc := by
      cases hcompletes with
      | write hlocate => exact ⟨_, hlocate⟩
    rw [← toOption_eq_some_iff, toOption_read_tell h, hlocate]
    exact Outcome.bytesAt?_tell_of_events _ _ (events_run hpath) (bytesAt?_run h hpath hlocate)

/-- **A run fails, refuses or is done**, and its status says which. -/
theorem run_cases (i : Invocation) (w : World) (time : String) :
    let o := (i.run w).tell time
    o.status = 1 ∧ i.Fails w o ∨ o.status = 2 ∧ i.Refuses w o ∨ o.status = 0 ∧ i.Completes w o := by
  rcases h : i.settingsOf w with e | s
  · exact .inl (fails_of_settingsOf h)
  · rcases Command.shown_cases w s.cap i.format i.command with
      hnone | ⟨output, hdone, hcompletes⟩ | ⟨hrefused, hrefuses⟩
    · exact .inl (fails_of_shown h hnone)
    · exact .inr (.inr (completes_of_shown h hdone hcompletes))
    · exact .inr (.inl (refuses_of_shown h hrefused hrefuses))

end Invocation

namespace CommandLine

end CommandLine

end QueryPrep
