import QueryPrep.Command.Run
import QueryPrep.Proofs.Files

/-!
# Which settings file counts

A path holds settings if something is there, it is a file whose bytes are a text, and the text is
one of a settings file (`Settings.Holds`). Whatever else can be at a path makes it unusable:
nothing, a directory, bytes that are no text, or a text of another form
(`Settings.isUnusable_iff`).

Main result: the search takes the first usable candidate as a whole, and the standard settings if
there is none; what the unusable candidates in front of it and the candidates behind it are has no
influence. A settings file that was asked for is the only one that counts, and if it is unusable no
command is carried out (`Settings.search_takes_first`).
-/

namespace QueryPrep

namespace FileTree

variable {t : FileTree} {path : String}

theorem exists_of_read {bytes : ByteArray} (h : t.read path = .ok bytes) : t.Exists path := by
  obtain ⟨loc, hlocate, -, hbytes⟩ := read_eq_ok_iff.mp h
  simp [Exists, hlocate, hbytes, Except.toOption]

/-- Of what is there only a directory cannot be read. -/
theorem eq_isDirectory_of_exists {e : FileError} (h : t.Exists path)
    (hread : t.read path = .error e) : e = .isDirectory := by
  rcases hlocate : t.locate path with e' | loc
  · simp [Exists, hlocate, Except.toOption] at h
  · by_cases hdir : t.IsDirectory loc
    · simpa [read, hlocate, hdir, bind, Except.bind, eq_comm] using hread
    · rcases hbytes : t.bytesAt? loc with - | bytes
      · simp [Exists, hlocate, hdir, hbytes, Except.toOption] at h
      · simp [read, hlocate, hdir, hbytes, bind, Except.bind] at hread

end FileTree

namespace Settings

/-- The file at a path holds settings. -/
def Holds (t : FileTree) (path : String) (s : Settings) : Prop :=
  t.Exists path ∧ ∃ bytes text, t.read path = .ok bytes ∧ String.fromUTF8? bytes = some text ∧
    parse text = some s

/-- What is at a path is of no use: nothing, a directory, bytes that are no text, or a text that is
none of a settings file. -/
def IsUnusable (t : FileTree) (path : String) : Prop :=
  ¬ t.Exists path ∨ t.read path = .error .isDirectory ∨
    (∃ bytes, t.read path = .ok bytes ∧ String.fromUTF8? bytes = none) ∨
    ∃ bytes text, t.read path = .ok bytes ∧ String.fromUTF8? bytes = some text ∧ parse text = none

/-- The first usable candidate, with the settings that it holds. -/
def IsFirst (t : FileTree) (home : Option String) (path : String) (s : Settings) : Prop :=
  ∃ before after, candidates home = before ++ path :: after ∧ (∀ p ∈ before, IsUnusable t p) ∧
    Holds t path s

variable {t t' : FileTree} {env : Environment} {home : Option String} {path : String}
  {s : Settings}

theorem IsFirst.holds (h : IsFirst t home path s) : Holds t path s := by
  obtain ⟨-, -, -, -, hs⟩ := h
  exact hs

/-! ### One file -/

theorem isUnusable_iff : IsUnusable t path ↔ ∀ s, ¬ Holds t path s := by
  constructor
  · rintro h s ⟨hexists, bytes, text, hread, htext, hparse⟩
    rcases h with hnone | hdir | ⟨bytes', hread', htext'⟩ | ⟨bytes', text', hread', htext', hparse'⟩
    · exact hnone hexists
    · rw [hread] at hdir
      contradiction
    · obtain rfl := Except.ok.inj (hread.symm.trans hread')
      rw [htext] at htext'
      contradiction
    · obtain rfl := Except.ok.inj (hread.symm.trans hread')
      obtain rfl := Option.some.inj (htext.symm.trans htext')
      rw [hparse] at hparse'
      contradiction
  · intro h
    by_cases hexists : t.Exists path
    · refine .inr ?_
      rcases hread : t.read path with e | bytes
      · exact .inl (congrArg _ (FileTree.eq_isDirectory_of_exists hexists hread))
      · refine .inr ?_
        rcases htext : String.fromUTF8? bytes with - | text
        · exact .inl ⟨bytes, rfl, htext⟩
        · rcases hparse : parse text with - | s
          · exact .inr ⟨bytes, text, rfl, htext, hparse⟩
          · exact absurd ⟨hexists, bytes, text, hread, htext, hparse⟩ (h s)
    · exact .inl hexists

theorem load_eq_ok_iff : load t path = .ok s ↔ Holds t path s := by
  unfold load FileTree.readText Holds
  rcases hread : t.read path with e | bytes
  · simp [bind, Except.bind]
  · have hexists := FileTree.exists_of_read hread
    rcases htext : String.fromUTF8? bytes with - | text
    · simp [bind, Except.bind, htext]
    · rcases hparse : parse text with - | found <;>
        simp [bind, Except.bind, htext, hparse, hexists]

theorem loadWith_of_holds (h : Holds t path s) : loadWith t env path = .ok (env.override s) := by
  rw [loadWith, load_eq_ok_iff.mpr h]
  rfl

/-- Why an unusable file is refused. -/
theorem loadWith_of_isUnusable (env : Environment) (h : IsUnusable t path) :
    ∃ e, loadWith t env path = .error e ∧
      (e = .malformed path ∨ ∃ cause, e = .unreadable path cause) := by
  have hnone := isUnusable_iff.mp h
  rcases htext : t.readText path with cause | text
  · exact ⟨.unreadable path cause, by simp [loadWith, load, htext, Except.map], .inr ⟨cause, rfl⟩⟩
  · rcases hparse : parse text with - | s
    · exact ⟨.malformed path, by simp [loadWith, load, htext, hparse, Except.map], .inl rfl⟩
    · exact absurd (load_eq_ok_iff.mp (by simp [load, htext, hparse])) (hnone s)

/-- Only the bytes at a path count. -/
theorem loadWith_congr (h : t'.read path = t.read path) :
    loadWith t' env path = loadWith t env path := by
  simp only [loadWith, load, FileTree.readText, h]

/-! ### The search -/

/-- The settings of the first usable candidate, or the standard ones, before the environment is
asked. -/
def found (t : FileTree) (home : Option String) : Settings :=
  ((candidates home).findSome? fun path => (load t path).toOption).getD .standard

theorem search_eq (t : FileTree) (env : Environment) (home : Option String) :
    search t env home = env.override (found t home) := by
  have hload : (fun path => (loadWith t env path).toOption) =
      Option.map env.override ∘ fun path => (load t path).toOption := by
    funext path
    show ((load t path).map env.override).toOption = (load t path).toOption.map env.override
    rcases load t path with e | s <;> rfl
  rw [search, found, hload, ← List.map_findSome?]
  rcases (candidates home).findSome? fun path => (load t path).toOption with - | s <;> rfl

theorem toOption_load_eq_some_iff : (load t path).toOption = some s ↔ Holds t path s := by
  rw [toOption_eq_some_iff, load_eq_ok_iff]

theorem toOption_load_eq_none_iff : (load t path).toOption = none ↔ IsUnusable t path := by
  simp only [isUnusable_iff, ← toOption_load_eq_some_iff, Option.eq_none_iff_forall_ne_some]

/-- Either there is a first usable candidate or all of them are unusable. -/
theorem found_cases (t : FileTree) (home : Option String) :
    (∃ path s, IsFirst t home path s) ∨ ∀ path ∈ candidates home, IsUnusable t path := by
  rcases hfound : (candidates home).findSome? fun path => (load t path).toOption with - | s
  · refine .inr fun path hpath => toOption_load_eq_none_iff.mp ?_
    exact List.findSome?_eq_none_iff.mp hfound path hpath
  · obtain ⟨before, path, after, hcandidates, hs, hbefore⟩ := List.findSome?_eq_some_iff.mp hfound
    refine .inl ⟨path, s, before, after, hcandidates, fun p hp => ?_, ?_⟩
    · exact toOption_load_eq_none_iff.mp (hbefore p hp)
    · exact toOption_load_eq_some_iff.mp hs

theorem found_of_isFirst (h : IsFirst t home path s) : found t home = s := by
  obtain ⟨before, after, hcandidates, hbefore, hs⟩ := h
  have hfound : (candidates home).findSome? (fun path => (load t path).toOption) = some s := by
    refine List.findSome?_eq_some_iff.mpr ⟨before, path, after, hcandidates, ?_, fun p hp => ?_⟩
    · exact toOption_load_eq_some_iff.mpr hs
    · exact toOption_load_eq_none_iff.mpr (hbefore p hp)
  rw [found, hfound]
  rfl

theorem found_of_unusable (h : ∀ path ∈ candidates home, IsUnusable t path) :
    found t home = .standard := by
  have hnone : (candidates home).findSome? (fun path => (load t path).toOption) = none :=
    List.findSome?_eq_none_iff.mpr fun path hpath => toOption_load_eq_none_iff.mpr (h path hpath)
  rw [found, hnone]
  rfl

/-! ### Runs -/

/-- With a settings file that cannot be used a run ends before it has begun. -/
theorem run_of_isUnusable {i : Invocation} {w : World} (hpath : i.settings = some path)
    (h : IsUnusable w.files path) :
    ∃ e, i.run w = .failure w.files none "" (.settings e) ∧
      (e = .malformed path ∨ ∃ cause, e = .unreadable path cause) := by
  obtain ⟨e, he, hcause⟩ := loadWith_of_isUnusable w.environment h
  refine ⟨e, ?_, hcause⟩
  rw [Invocation.run, Invocation.settingsOf, hpath]
  simp only [he]

/-- **The search takes the first usable candidate, as a whole, or else the standard settings**, and
nothing that is at another path matters; a settings file that was asked for is used or ends the
run. -/
theorem search_takes_first (t : FileTree) (env : Environment) (home : Option String) :
    ((∃ path s, IsFirst t home path s ∧ search t env home = env.override s ∧
        loadWith t env path = .ok (search t env home)) ∨
      (∀ path ∈ candidates home, IsUnusable t path) ∧ search t env home = env.override .standard) ∧
    (∀ t' path s, IsFirst t home path s → IsFirst t' home path s →
      search t' env home = search t env home) ∧
    ∀ words i path, CommandLine.read words = some (.invoke i) → i.settings = some path →
      (∀ w w', w'.environment = w.environment → w'.files.read path = w.files.read path →
        i.settingsOf w' = i.settingsOf w) ∧
      ∀ w, IsUnusable w.files path → ∃ e,
        CommandLine.run words w = .failure w.files none "" (.settings e) ∧
          (e = .malformed path ∨ ∃ cause, e = .unreadable path cause) ∧
        (CommandLine.run words w).status = 1 ∧ (CommandLine.run words w).output = "" := by
  refine ⟨?_, fun t' path s h h' => ?_, fun words i path hwords hpath => ⟨?_, fun w hw => ?_⟩⟩
  · rcases found_cases t home with ⟨path, s, h⟩ | h
    · refine .inl ⟨path, s, h, ?_, ?_⟩
      · rw [search_eq, found_of_isFirst h]
      · rw [search_eq, found_of_isFirst h, loadWith_of_holds h.holds]
    · exact .inr ⟨h, by rw [search_eq, found_of_unusable h]⟩
  · rw [search_eq, search_eq, found_of_isFirst h, found_of_isFirst h']
  · intro w w' henv hread
    rw [Invocation.settingsOf, Invocation.settingsOf, hpath, henv]
    exact loadWith_congr hread
  · obtain ⟨e, hrun, hcause⟩ := run_of_isUnusable hpath hw
    rw [CommandLine.run, hwords]
    simp only [hrun]
    exact ⟨e, rfl, hcause, rfl, rfl⟩

/-- The first candidate is a directory and the second is no text; the file that was asked for holds
no settings, although a candidate does. -/
theorem search_takes_first_third :
    let t : FileTree := ⟨[(["etc", "querysplit", "config.toml"], ⟨#[0xff]⟩),
      (["w", "config.toml"], "split = [7]".toUTF8), (["w", "c"], "split = 7".toUTF8)],
      [["x", "querysplit", "config.toml"]], ["w"]⟩
    let env : Environment := .ofList [("QUERYSPLIT_API_PORT", "80")]
    let w : World := ⟨t, env, some "/x", .empty, ⟨0, 0⟩⟩
    search t env (some "/x") = env.override { Settings.standard with cap := 7 } ∧
      (CommandLine.run ["config", "--config=c"] w).status = 1 ∧
      (CommandLine.run ["config", "--config=c"] w).output = "" := by
  intro t env w
  have hfirst : IsFirst t (some "/x") "./config.toml" { Settings.standard with cap := 7 } := by
    refine ⟨["/x/querysplit/config.toml", "/etc/querysplit/config.toml"], [], rfl, ?_, ?_⟩
    · intro p hp
      simp only [List.mem_cons, List.not_mem_nil, or_false] at hp
      rcases hp with rfl | rfl
      · exact .inr (.inl rfl)
      · exact .inr (.inr (.inl ⟨⟨#[0xff]⟩, rfl, by decide +kernel⟩))
    · exact toOption_load_eq_some_iff.mp (by decide +kernel)
  have hunusable : IsUnusable t "c" :=
    toOption_load_eq_none_iff.mp (by decide +kernel)
  obtain ⟨hsearch, -, hasked⟩ := search_takes_first t env (some "/x")
  obtain ⟨-, hrun⟩ := hasked ["config", "--config=c"] ⟨.sample none, some "c", .table⟩ "c"
    (by decide +kernel) rfl
  obtain ⟨-, -, -, hstatus, houtput⟩ := hrun w hunusable
  refine ⟨?_, hstatus, houtput⟩
  rcases hsearch with ⟨path, s, h, heq, -⟩ | ⟨hall, -⟩
  · rw [heq, ← found_of_isFirst h, found_of_isFirst hfirst]
  · have hnot := isUnusable_iff.mp (hall "./config.toml" (by decide))
    exact absurd hfirst.holds (hnot _)

end Settings

end QueryPrep
