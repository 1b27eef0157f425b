import Mathlib.Tactic.ByContra
import Mathlib.Tactic.SplitIfs
import QueryPrep.Files
import QueryPrep.Proofs.Reading

/-!
# Files that stay as they are

A file that is opened for appending may have to be added. This is the only change to the files of a
run before its command is carried out, and it disturbs nothing: the new file lies in a directory
that was there before, so there are the same directories as before (`FileTree.SameDirectories`) and
every path leads to where it led. Whatever could be read still can, with the same bytes, and what
can be read besides is empty (`readText_of_openForAppending`, `of_readText_openForAppending`).
-/

namespace QueryPrep.FileTree

variable {t t' : FileTree} {loc loc' : Location} {path : String} {cs : List String}

/-! ### Directories -/

theorem isDirectory_iff : t.IsDirectory loc ↔
    loc = [] ∨ (∃ dir ∈ t.directories, loc <+: dir) ∨ ∃ f ∈ t.files, loc <+: f.1.dropLast := by
  simp [IsDirectory]

/-- What a directory lies in is a directory. -/
theorem IsDirectory.of_above (h : t.IsDirectory loc) (habove : loc' <+: loc) :
    t.IsDirectory loc' := by
  rw [isDirectory_iff] at h ⊢
  rcases h with rfl | ⟨dir, hdir, hloc⟩ | ⟨f, hf, hloc⟩
  · exact .inl (List.prefix_nil.mp habove)
  · exact .inr (.inl ⟨dir, hdir, habove.trans hloc⟩)
  · exact .inr (.inr ⟨f, hf, habove.trans hloc⟩)

theorem isDirectory_of_follow_cons {c : String} (h : t.follow loc (c :: cs) = .ok loc') :
    t.IsDirectory loc := by
  by_contra hdir
  rw [follow, if_neg hdir] at h
  split_ifs at h

/-- Each component leads from a directory to itself, upwards or to something right below it. -/
theorem isDirectory_dropLast_of_follow (h : t.follow loc cs = .ok loc')
    (hloc : t.IsDirectory loc.dropLast) : t.IsDirectory loc'.dropLast := by
  induction cs generalizing loc with
  | nil => exact Except.ok.inj h ▸ hloc
  | cons c cs ih =>
      have hdir := isDirectory_of_follow_cons h
      rw [follow, if_pos hdir] at h
      split_ifs at h
      · exact ih h hloc
      · exact ih h (hloc.of_above (List.dropLast_prefix _))
      · exact ih h (by rwa [List.dropLast_concat])

theorem isDirectory_dropLast_of_locate (h : t.locate path = .ok loc) :
    t.IsDirectory loc.dropLast := by
  have hcomponents : components path ≠ [] :=
    fun hnil => List.splitOn_ne_nil _ _ (List.map_eq_nil_iff.mp hnil)
  rcases hcs : components path with - | ⟨c, cs⟩
  · exact absurd hcs hcomponents
  · rw [locate, hcs] at h
    split_ifs at h <;>
      exact isDirectory_dropLast_of_follow h
        ((isDirectory_of_follow_cons h).of_above (List.dropLast_prefix _))

/-! ### Paths -/

/-- With the same directories paths lead to the same places. -/
theorem follow_congr (hdirs : ∀ loc, t'.IsDirectory loc ↔ t.IsDirectory loc)
    (h : t.follow loc cs = .ok loc') : t'.follow loc cs = .ok loc' := by
  induction cs generalizing loc with
  | nil => exact h
  | cons c cs ih =>
      have hdir := isDirectory_of_follow_cons h
      rw [follow, if_pos hdir] at h
      rw [follow, if_pos ((hdirs loc).mpr hdir)]
      split_ifs at h ⊢
      · exact ih h
      · exact ih h
      · exact ih h

/-- The same directories, among them the same one to start from. -/
structure SameDirectories (t t' : FileTree) : Prop where
  workingDirectory : t'.workingDirectory = t.workingDirectory
  isDirectory_iff : ∀ loc, t'.IsDirectory loc ↔ t.IsDirectory loc

namespace SameDirectories

theorem refl (t : FileTree) : t.SameDirectories t :=
  ⟨rfl, fun _ => Iff.rfl⟩

theorem symm (h : t.SameDirectories t') : t'.SameDirectories t :=
  ⟨h.workingDirectory.symm, fun loc => (h.isDirectory_iff loc).symm⟩

theorem trans {t'' : FileTree} (h : t.SameDirectories t') (h' : t'.SameDirectories t'') :
    t.SameDirectories t'' :=
  ⟨h'.workingDirectory.trans h.workingDirectory,
    fun loc => (h'.isDirectory_iff loc).trans (h.isDirectory_iff loc)⟩

theorem locate_eq_ok (hsame : t.SameDirectories t') (h : t.locate path = .ok loc) :
    t'.locate path = .ok loc := by
  rw [locate] at h ⊢
  split_ifs at h ⊢
  · exact follow_congr hsame.isDirectory_iff h
  · exact hsame.workingDirectory ▸ follow_congr hsame.isDirectory_iff h

theorem locate_eq_ok_iff (hsame : t.SameDirectories t') :
    t'.locate path = .ok loc ↔ t.locate path = .ok loc :=
  ⟨hsame.symm.locate_eq_ok, hsame.locate_eq_ok⟩

end SameDirectories

/-- What a file is written at is where its path leads; a path that ends in a slash is refused. -/
theorem locateForWriting_eq_ok_iff : t.locateForWriting path = .ok loc ↔
    path.toList.getLast? ≠ some '/' ∧ ¬ t.IsDirectory loc ∧ t.locate path = .ok loc := by
  by_cases hslash : path.toList.getLast? = some '/'
  · simp only [locateForWriting, hslash, true_or, if_true, bind, Except.bind]
    split <;> simp
  · -- so there is nothing to take off the path
    have hname : (path.toList.reverse.dropWhile (· = '/')).reverse = path.toList := by
      rw [Text.dropWhile_eq_self_of_head, List.reverse_reverse]
      intro c hc
      rw [List.head?_reverse] at hc
      exact decide_eq_false fun heq => hslash (heq ▸ hc)
    have hpath : (if path.toList.isEmpty then path else String.ofList path.toList) = path := by
      rw [String.ofList_toList, ite_self]
    simp only [locateForWriting, hname, hpath, hslash, false_or, bind, Except.bind, ne_eq,
      not_false_eq_true, true_and]
    rcases t.locate path with e | found
    · simp
    · by_cases hdir : t.IsDirectory found
      · simp only [hdir, if_true, reduceCtorEq, Except.ok.injEq, false_iff, not_and]
        rintro hloc rfl
        exact hloc hdir
      · simp only [hdir, if_false, Except.ok.injEq]
        constructor
        · rintro rfl
          exact ⟨hdir, rfl⟩
        · exact fun h => h.2

theorem isDirectory_dropLast_of_locateForWriting (h : t.locateForWriting path = .ok loc) :
    t.IsDirectory loc.dropLast :=
  isDirectory_dropLast_of_locate (locateForWriting_eq_ok_iff.mp h).2.2

/-- With the same directories the same files can be written. -/
theorem SameDirectories.locateForWriting_eq_ok_iff (hsame : t.SameDirectories t') :
    t'.locateForWriting path = .ok loc ↔ t.locateForWriting path = .ok loc := by
  rw [FileTree.locateForWriting_eq_ok_iff, FileTree.locateForWriting_eq_ok_iff,
    hsame.isDirectory_iff, hsame.locate_eq_ok_iff]

theorem SameDirectories.toOption_locateForWriting (hsame : t.SameDirectories t') (path : String) :
    (t'.locateForWriting path).toOption = (t.locateForWriting path).toOption := by
  rcases hbefore : t.locateForWriting path with e | loc
  · rcases hafter : t'.locateForWriting path with e' | loc
    · rfl
    · rw [hsame.locateForWriting_eq_ok_iff.mp hafter] at hbefore
      contradiction
  · rw [hsame.locateForWriting_eq_ok_iff.mpr hbefore]

/-! ### Reading -/

theorem read_eq_ok_iff {bytes : ByteArray} : t.read path = .ok bytes ↔
    ∃ loc, t.locate path = .ok loc ∧ ¬ t.IsDirectory loc ∧ t.bytesAt? loc = some bytes := by
  simp only [read, bind, Except.bind]
  rcases t.locate path with e | loc
  · simp
  · simp only [Except.ok.injEq, exists_eq_left']
    rcases hbytes : t.bytesAt? loc with - | found <;> by_cases hdir : t.IsDirectory loc <;>
      simp [hdir]

/-! ### Slashes at the end -/

/-- What is followed with an empty component at the end is a directory. -/
theorem isDirectory_of_follow_concat (h : t.follow loc (cs ++ [""]) = .ok loc') :
    t.IsDirectory loc' := by
  induction cs generalizing loc with
  | nil =>
      have hdir := isDirectory_of_follow_cons h
      rw [List.nil_append, follow, if_pos hdir] at h
      exact Except.ok.inj h ▸ hdir
  | cons c cs ih =>
      rw [List.cons_append, follow, if_pos (isDirectory_of_follow_cons h)] at h
      split_ifs at h
      · exact ih h
      · exact ih h
      · exact ih h

theorem isDirectory_of_locate_of_slash (hslash : path.toList.getLast? = some '/')
    (h : t.locate path = .ok loc) : t.IsDirectory loc := by
  obtain ⟨chars, hchars⟩ := List.getLast?_eq_some_iff.mp hslash
  have hcomponents : components path = (chars.splitOn '/').map String.ofList ++ [""] := by
    rw [components, hchars, List.splitOn_append_cons_self, List.map_append]
    rfl
  rw [locate, hcomponents] at h
  split_ifs at h <;> exact isDirectory_of_follow_concat h

/-- **What can be read at a path is what lies where a file would be written.** -/
theorem toOption_read (t : FileTree) (path : String) :
    (t.read path).toOption = (t.locateForWriting path).toOption.bind t.bytesAt? := by
  ext bytes
  simp only [Option.bind_eq_some_iff, toOption_eq_some_iff, read_eq_ok_iff,
    locateForWriting_eq_ok_iff]
  constructor
  · rintro ⟨loc, hlocate, hdir, hbytes⟩
    have hslash : path.toList.getLast? ≠ some '/' :=
      fun h => hdir (isDirectory_of_locate_of_slash h hlocate)
    exact ⟨loc, ⟨hslash, hdir, hlocate⟩, hbytes⟩
  · rintro ⟨loc, ⟨-, hdir, hlocate⟩, hbytes⟩
    exact ⟨loc, hlocate, hdir, hbytes⟩

/-! ### A file that is added -/

/-- A file in a directory that is there makes no other directory, and none is lost with a file that
it replaces. -/
theorem isDirectory_put_iff (bytes : ByteArray) (hdir : t.IsDirectory loc.dropLast)
    (other : Location) : (t.put loc bytes).IsDirectory other ↔ t.IsDirectory other := by
  constructor
  · intro h
    rw [isDirectory_iff] at h
    rcases h with hnil | hknown | ⟨f, hf, habove⟩
    · exact isDirectory_iff.mpr (.inl hnil)
    · exact isDirectory_iff.mpr (.inr (.inl hknown))
    · rcases List.mem_cons.mp hf with rfl | hf
      · exact hdir.of_above habove
      · exact isDirectory_iff.mpr (.inr (.inr ⟨f, (List.mem_filter.mp hf).1, habove⟩))
  · intro h
    rw [isDirectory_iff] at h ⊢
    refine h.imp_right (.imp_right ?_)
    rintro ⟨f, hf, habove⟩
    by_cases hloc : f.1 = loc
    · exact ⟨(loc, bytes), List.mem_cons_self, hloc ▸ habove⟩
    · exact ⟨f, List.mem_cons_of_mem _ (List.mem_filter.mpr ⟨hf, decide_eq_true hloc⟩), habove⟩

theorem sameDirectories_put (bytes : ByteArray) (hdir : t.IsDirectory loc.dropLast) :
    t.SameDirectories (t.put loc bytes) :=
  ⟨rfl, isDirectory_put_iff bytes hdir⟩

/-- What opening a file comes to. -/
theorem openForAppending_cases {log : String} (h : t.openForAppending log = .ok (loc, t')) :
    t.locateForWriting log = .ok loc ∧ (t' = t ∨
      t.IsDirectory loc.dropLast ∧ t.bytesAt? loc = none ∧ t' = t.put loc .empty) := by
  simp only [openForAppending, bind, Except.bind] at h
  rcases hplace : t.locateForWriting log with e | place
  · simp [hplace] at h
  · simp only [hplace] at h
    split_ifs at h with hold
    · obtain ⟨rfl, rfl⟩ := Prod.ext_iff.mp (Except.ok.inj h)
      exact ⟨rfl, .inl rfl⟩
    · obtain ⟨rfl, rfl⟩ := Prod.ext_iff.mp (Except.ok.inj h)
      exact ⟨rfl, .inr ⟨isDirectory_dropLast_of_locateForWriting hplace, by simpa using hold,
        rfl⟩⟩

theorem sameDirectories_of_openForAppending {log : String}
    (h : t.openForAppending log = .ok (loc, t')) : t.SameDirectories t' := by
  obtain ⟨-, rfl | ⟨hdir, -, rfl⟩⟩ := openForAppending_cases h
  · exact .refl t'
  · exact sameDirectories_put .empty hdir

/-- Other files stay as they are. -/
theorem bytesAt?_of_openForAppending {log : String} (h : t.openForAppending log = .ok (loc, t'))
    (hne : loc' ≠ loc) : t'.bytesAt? loc' = t.bytesAt? loc' := by
  obtain ⟨-, rfl | ⟨-, -, rfl⟩⟩ := openForAppending_cases h
  · rfl
  · exact bytesAt?_put_of_ne t .empty hne

theorem readText_eq_ok_iff {text : String} : t.readText path = .ok text ↔
    ∃ bytes, t.read path = .ok bytes ∧ String.fromUTF8? bytes = some text := by
  simp only [readText, bind, Except.bind]
  rcases t.read path with e | bytes
  · simp
  · rcases htext : String.fromUTF8? bytes with - | found <;> simp [htext]

/-- **A text that can be read can still be read after a file was opened for appending.** -/
theorem readText_of_openForAppending {text log : String}
    (hopen : t.openForAppending log = .ok (loc, t')) (h : t.readText path = .ok text) :
    t'.readText path = .ok text := by
  have hsame := sameDirectories_of_openForAppending hopen
  obtain ⟨bytes, hread, htext⟩ := readText_eq_ok_iff.mp h
  obtain ⟨found, hlocate, hfile, hbytes⟩ := read_eq_ok_iff.mp hread
  refine readText_eq_ok_iff.mpr ⟨bytes, read_eq_ok_iff.mpr ⟨found, ?_, ?_, ?_⟩, htext⟩
  · exact hsame.locate_eq_ok hlocate
  · exact fun hdir => hfile ((hsame.isDirectory_iff found).mp hdir)
  · obtain ⟨-, rfl | ⟨-, hnone, rfl⟩⟩ := openForAppending_cases hopen
    · exact hbytes
    · -- the file that is read was there, and the one that is added was not
      have hne : found ≠ loc := by
        rintro rfl
        rw [hnone] at hbytes
        contradiction
      rw [bytesAt?_put_of_ne t .empty hne]
      exact hbytes

/-- What can be read only after a file was opened for appending is empty. -/
theorem of_readText_openForAppending {text log : String}
    (hopen : t.openForAppending log = .ok (loc, t')) (h : t'.readText path = .ok text) :
    t.readText path = .ok text ∨ text = "" := by
  have hsame := sameDirectories_of_openForAppending hopen
  obtain ⟨bytes, hread, htext⟩ := readText_eq_ok_iff.mp h
  obtain ⟨found, hlocate, hfile, hbytes⟩ := read_eq_ok_iff.mp hread
  by_cases hold : t.bytesAt? found = some bytes
  · refine .inl (readText_eq_ok_iff.mpr ⟨bytes, read_eq_ok_iff.mpr ⟨found, ?_, ?_, hold⟩, htext⟩)
    · exact hsame.locate_eq_ok_iff.mp hlocate
    · exact fun hdir => hfile ((hsame.isDirectory_iff found).mpr hdir)
  · -- then it is the file that has been added
    obtain ⟨-, rfl | ⟨-, -, rfl⟩⟩ := openForAppending_cases hopen
    · exact absurd hbytes hold
    · by_cases hne : found = loc
      · subst hne
        rw [bytesAt?_put_self] at hbytes
        obtain rfl := Option.some.inj hbytes
        exact .inr (Option.some.inj htext).symm
      · rw [bytesAt?_put_of_ne t .empty hne] at hbytes
        exact absurd hbytes hold

theorem ne_empty_of_readText {text : String} (h : t.readText path = .ok text) : path ≠ "" := by
  rintro rfl
  have hread : t.read "" = .error .notFound := rfl
  simp [readText, hread, bind, Except.bind] at h

end QueryPrep.FileTree
