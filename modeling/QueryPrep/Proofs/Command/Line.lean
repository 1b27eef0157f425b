import Mathlib.Data.List.Nodup
import QueryPrep.Command.Line

/-!
# Options are read as they were given

Options with their values in the same word, `--name=value`, can be given in any order and with any
text as a value: one that begins with a dash, holds an equals sign or is empty is taken as it is.
They are read as the pairs of names and values that they were written from
(`readOptions_optionWords`), and then only look-ups by name tell them apart, so their order does not
matter (`lookup_eq_of_perm`).

What a whole line with the name of a command in front asks for is `read_name`.
-/

namespace QueryPrep.CommandLine

/-! ### Look-ups by name -/

/-- Where no name is there twice the order of the pairs does not matter. -/
theorem lookup_eq_of_perm {α β : Type} [BEq α] [LawfulBEq α] {a b : List (α × β)} (h : a.Perm b)
    (hnodup : (a.map Prod.fst).Nodup) (k : α) : a.lookup k = b.lookup k := by
  induction h with
  | nil => rfl
  | cons x _ ih =>
      obtain ⟨i, v⟩ := x
      rw [List.lookup_cons, List.lookup_cons, ih (List.nodup_cons.mp hnodup).2]
  | swap x y l =>
      obtain ⟨i, v⟩ := x
      obtain ⟨j, w⟩ := y
      have hne : j ≠ i := fun heq => (List.nodup_cons.mp hnodup).1 (heq ▸ List.mem_cons_self)
      simp only [List.lookup_cons]
      rcases hi : k == i with - | -
      · rfl
      · have hj : (k == j) = false := by
          rw [eq_of_beq hi]
          exact beq_eq_false_iff_ne.mpr hne.symm
        rw [hj]
  | trans hab _ ihab ihbc =>
      exact (ihab hnodup).trans (ihbc ((hab.map Prod.fst).nodup_iff.mp hnodup))

/-! ### Options -/

/-- An option with its value, in one word. -/
def optionWord (o : String × String) : String :=
  "--" ++ o.1 ++ "=" ++ o.2

/-- An option that is one of the given ones and accepts its value. -/
def Knows (switches : List Switch) (o : String × String) : Prop :=
  '=' ∉ o.1.toList ∧ ∃ s, switches.find? (·.name = o.1) = some s ∧ s.Accepts o.2 = true

variable {switches : List Switch} {o : String × String} {options given behind : Given}

theorem toList_optionWord :
    (optionWord o).toList = '-' :: '-' :: (o.1.toList ++ '=' :: o.2.toList) := by
  simp [optionWord]

/-- The word is read as the option it was written from. -/
theorem word_optionWord {s : Switch} (hname : '=' ∉ o.1.toList)
    (hfind : switches.find? (·.name = o.1) = some s) :
    word false switches (optionWord o) = .complete s o.2 := by
  have htake : (o.1.toList ++ '=' :: o.2.toList).takeWhile (· ≠ '=') = o.1.toList := by
    rw [List.takeWhile_append_of_pos]
    · simp
    · intro c hc
      exact decide_eq_true fun heq => hname (heq ▸ hc)
  -- names are compared as characters
  have hfind' : switches.find? (·.name.toList = o.1.toList) = some s := by
    simpa only [String.toList_inj] using hfind
  have htail : ((o.1.toList ++ '=' :: o.2.toList).drop o.1.toList.length).tail? =
      some o.2.toList := by
    rw [List.drop_left]
    rfl
  rw [word, toList_optionWord]
  rcases hword : o.1.toList ++ '=' :: o.2.toList with - | ⟨c, cs⟩
  · exact absurd hword (by simp)
  · rw [hword] at htake htail
    simp only [Bool.false_eq_true, false_and, if_false, htake, htail, hfind', Word.ofSwitch?,
      String.ofList_toList]

/-- **Options are read as they were given**, whatever their values are. -/
theorem readOptions_optionWords (hknown : ∀ o ∈ options, Knows switches o)
    (hnodup : ((given ++ options).map Prod.fst).Nodup) :
    readOptions false switches (options.map optionWord) given =
      some (.options (given ++ options) []) := by
  induction options generalizing given with
  | nil => rw [List.append_nil]; rfl
  | cons o options ih =>
      obtain ⟨⟨hname, s, hfind, haccepts⟩, hknown⟩ := List.forall_mem_cons.mp hknown
      have hs : s.name = o.1 := by simpa using List.find?_some hfind
      -- nothing is given twice, so the option is not refused
      have hfresh : given.any (·.1 = s.name) = false := by
        rw [List.any_eq_false]
        intro p hp heq
        rw [List.map_append, List.nodup_append] at hnodup
        refine hnodup.2.2 p.1 (List.mem_map_of_mem hp) o.1 List.mem_cons_self ?_
        exact (of_decide_eq_true heq).trans hs
      have hadd : given.add s o.2 = some (given ++ [o]) := by
        rw [Given.add, hfresh, haccepts, hs]
        rfl
      rw [List.map_cons, readOptions, word_optionWord hname hfind]
      simp only [hadd, Option.bind_some]
      have hnodup' : ((given ++ [o] ++ options).map Prod.fst).Nodup := by simpa using hnodup
      rw [ih hknown hnodup', List.append_assoc, List.singleton_append]

/-! ### Options of one kind -/

section

variable {names words : List String} {rest : List Switch}

/-- An option that takes any text needs nothing but its name. -/
theorem knows_textSwitch (hmem : o.1 ∈ names) (hname : '=' ∉ o.1.toList) :
    Knows (names.map textSwitch ++ rest) o := by
  refine ⟨hname, textSwitch o.1, ?_, rfl⟩
  have hfind : names.find? (· = o.1) = some o.1 := by
    rcases hfound : names.find? (· = o.1) with - | name
    · simpa using List.find?_eq_none.mp hfound o.1 hmem
    · simpa using List.find?_some hfound
  have hswitch : (names.map textSwitch).find? (·.name = o.1) =
      (names.find? (· = o.1)).map textSwitch := by
    rw [List.find?_map]
    rfl
  rw [List.find?_append, hswitch, hfind]
  rfl

theorem knows_config {path : String} (hnames : "config" ∉ names) (hpath : path ≠ "") :
    Knows (names.map textSwitch ++ common) ("config", path) := by
  refine ⟨(by decide : '=' ∉ "config".toList), pathSwitch "config" (some 'c'), ?_,
    by simpa [pathSwitch] using hpath⟩
  have hnone : (names.map textSwitch).find? (·.name = "config") = none := by
    rw [List.find?_eq_none]
    rintro _ hs
    obtain ⟨name, hname, rfl⟩ := List.mem_map.mp hs
    exact fun heq => hnames (of_decide_eq_true heq ▸ hname)
  rw [List.find?_append, hnone]
  rfl

/-- A letter behind a dash, with its value in the next word. -/
theorem word_letter {text : String} {c : Char} (htext : text.toList = ['-', c]) (hc : c ≠ '-') :
    word false switches text = .ofSwitch? (switches.find? (·.letter = some c)) none := by
  rw [word, htext]
  simp [hc]

theorem readOptions_format :
    readOptions false (names.map textSwitch ++ common) ("-f" :: "json" :: words) [] =
      readOptions false (names.map textSwitch ++ common) words [("format", "json")] := by
  have hfind : (names.map textSwitch ++ common).find? (·.letter = some 'f') =
      some ⟨"format", some 'f', fun s => (OutputFormat.ofName? s).isSome⟩ := by
    have hnone : (names.map textSwitch).find? (·.letter = some 'f') = none := by
      simp [textSwitch]
    rw [List.find?_append, hnone]
    rfl
  rw [readOptions, word_letter (c := 'f') (by decide) (by decide), hfind]
  rfl

/-- **Texts for options that take any text**, in any order, behind the wish for JSON and maybe with
a settings file: what is read has each of them under its name. -/
theorem readOptions_texts {texts : Given} {config : Option String}
    (hoptions : options.Perm ((config.map ("config", ·)).toList ++ texts))
    (hnodup : (texts.map Prod.fst).Nodup)
    (hnames : ∀ o ∈ texts, '=' ∉ o.1.toList ∧ o.1 ≠ "config" ∧ o.1 ≠ "format")
    (hconfig : config ≠ some "") :
    readOptions false ((texts.map Prod.fst).map textSwitch ++ common)
        ("-f" :: "json" :: options.map optionWord) [] =
      some (.options ([("format", "json")] ++ options) []) ∧
    ∀ name, Given.value? ([("format", "json")] ++ options) name =
      Given.value? ([("format", "json")] ++ ((config.map ("config", ·)).toList ++ texts)) name := by
  have hperm := hoptions.append_left [("format", "json")]
  have hfresh : ∀ name, name = "config" ∨ name = "format" → name ∉ texts.map Prod.fst := by
    rintro _ hname hmem
    obtain ⟨o, ho, rfl⟩ := List.mem_map.mp hmem
    obtain ⟨-, hconfig, hformat⟩ := hnames o ho
    exact hname.elim hconfig hformat
  have hdistinct : (([("format", "json")] ++ options).map Prod.fst).Nodup := by
    rw [(hperm.map Prod.fst).nodup_iff]
    have hformat := hfresh "format" (.inr rfl)
    have hsettings := hfresh "config" (.inl rfl)
    rcases config with - | path
    · exact List.nodup_cons.mpr ⟨hformat, hnodup⟩
    · refine List.nodup_cons.mpr ⟨?_, List.nodup_cons.mpr ⟨hsettings, hnodup⟩⟩
      have hne : "format" ≠ "config" := by decide
      exact fun hmem => (List.mem_cons.mp hmem).elim hne hformat
  have hknown : ∀ o ∈ options, Knows ((texts.map Prod.fst).map textSwitch ++ common) o := by
    intro o ho
    rcases List.mem_append.mp (hoptions.mem_iff.mp ho) with ho | ho
    · rcases config with - | path
      · cases ho
      · rw [List.mem_singleton.mp ho]
        exact knows_config (hfresh "config" (.inl rfl)) fun hpath => hconfig (congrArg some hpath)
    · exact knows_textSwitch (List.mem_map_of_mem ho) (hnames o ho).1
  rw [readOptions_format]
  exact ⟨readOptions_optionWords hknown hdistinct, lookup_eq_of_perm hperm hdistinct⟩

end

/-! ### Lines -/

/-- A line with the name of a command in front and its options behind. -/
theorem read_name {name : String} {form : Form} {words : List String}
    (hform : forms.find? (·.name = name) = some form) (hplain : word true common name = .plain)
    (hoptions : readOptions false (form.switches ++ common) words [] =
      some (.options behind [])) :
    read (name :: words) = (invocation form [] behind).map .invoke := by
  rw [read, readOptions, hplain]
  simp only [Option.bind_eq_bind, Option.bind_some, hform, hoptions]
  rcases invocation form [] behind with - | i <;> rfl

end QueryPrep.CommandLine
