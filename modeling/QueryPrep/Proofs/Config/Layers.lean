import Mathlib.Data.List.Forall2
import QueryPrep.Proofs.Command.Run
import QueryPrep.Proofs.Config.Search
import QueryPrep.Proofs.Text.Marks
import QueryPrep.Proofs.Time.Duration

/-!
# The environment over a settings file

Every setting has one source: the variable of the environment that is meant for it, if this is set
to something usable, and otherwise the settings file (`Takes`). What is usable differs: a numeral in
range for the numbers, the name of a format in capital or small letters, and any text for the rest
(`Decimal.IsNumeral`, `LogFormat.Names`). No variable has a say in another setting, and two
settings have no variable at all (`Environment.Layered`).

Main result: loading a settings file yields these settings, to which the environment has nothing to
add, and whose cap is the one under which commands are carried out (`Settings.loadWith_layered`).
-/

namespace QueryPrep

open QueryPrep.Json.Numeral (IsDigits)

/-! ### What is usable -/

namespace Decimal

/-- The text of a number below a limit: digits, with at most a plus sign in front. -/
def IsNumeral (limit : Nat) (text : String) (n : Nat) : Prop :=
  n < limit ∧ ∃ ds, IsDigits ds ∧ value ds = n ∧ (text.toList = ds ∨ text.toList = '+' :: ds)

theorem readUnsigned?_eq_some_iff {cs : List Char} {n : Nat} : readUnsigned? cs = some n ↔
    ∃ ds, IsDigits ds ∧ value ds = n ∧ (cs = ds ∨ cs = '+' :: ds) := by
  -- what begins with a plus sign is no run of digits
  have hplus : ∀ ds, ¬ IsDigits ('+' :: ds) := fun ds h =>
    absurd (h.2 '+' List.mem_cons_self) (by decide)
  unfold readUnsigned?
  split
  · rename_i ds
    rw [Duration.readNat?_eq_some_iff]
    constructor
    · rintro ⟨hds, rfl⟩
      exact ⟨ds, hds, rfl, .inr rfl⟩
    · rintro ⟨es, hes, rfl, rfl | heq⟩
      · exact absurd hes (hplus ds)
      · obtain rfl := (List.cons.inj heq).2
        exact ⟨hes, rfl⟩
  · rename_i hsign
    rw [Duration.readNat?_eq_some_iff]
    constructor
    · rintro ⟨hcs, rfl⟩
      exact ⟨cs, hcs, rfl, .inl rfl⟩
    · rintro ⟨ds, hds, rfl, rfl | rfl⟩
      · exact ⟨hds, rfl⟩
      · exact absurd rfl (hsign ds)

end Decimal

namespace LogFormat

/-- The text is the name of a format, each of its letters a small or a capital one. -/
def Names (text : String) (f : LogFormat) : Prop :=
  List.Forall₂ (fun c d => c = d ∨ c = d.toUpper) text.toList f.name.toList

instance (text : String) (f : LogFormat) : Decidable (Names text f) :=
  inferInstanceAs (Decidable (List.Forall₂ _ _ _))

/-- A small letter is what both of its forms have as their small letter. -/
theorem toLower_eq_iff {c d : Char} (hd : d.isLower = true) :
    c.toLower = d ↔ c = d ∨ c = d.toUpper := by
  have hsmall : 'a'.val ≤ d.val ∧ d.val ≤ 'z'.val :=
    (Bool.and_eq_true _ _ ▸ hd : _ ∧ _).imp of_decide_eq_true of_decide_eq_true
  have hcapital : d.toUpper.val = d.val + ('A'.val - 'a'.val) := by
    delta Char.toUpper
    rw [dif_pos hsmall]
  delta Char.toLower
  split
  · constructor
    · rintro rfl
      refine .inr (Char.ext ?_)
      rw [hcapital]
      grind
    · rintro (rfl | rfl)
      · grind
      · apply Char.ext
        simp only [hcapital]
        grind
  · rename_i hnot
    constructor
    · exact .inl
    · rintro (rfl | rfl)
      · rfl
      · -- the capital form of a small letter is a capital letter
        refine absurd ⟨?_, ?_⟩ hnot
        · show 65 ≤ d.toUpper.val.toNat
          grind
        · grind

theorem map_toLower_eq_iff {cs ds : List Char} (hds : ∀ d ∈ ds, d.isLower = true) :
    cs.map Char.toLower = ds ↔ List.Forall₂ (fun c d => c = d ∨ c = d.toUpper) cs ds := by
  induction ds generalizing cs with
  | nil => simp
  | cons d ds ih =>
      obtain ⟨hd, hds⟩ := List.forall_mem_cons.mp hds
      cases cs with
      | nil => simp
      | cons c cs => simp [toLower_eq_iff hd, ih hds]

theorem isLower_of_mem_name (f : LogFormat) : ∀ d ∈ f.name.toList, d.isLower = true := by
  rw [← List.all_eq_true]
  cases f <;> rfl

theorem ofName?_eq_some_iff {s : String} {f : LogFormat} : ofName? s = some f ↔ s = f.name := by
  constructor
  · intro h
    exact (of_decide_eq_true (List.find?_some h :)).symm
  · rintro rfl
    exact ofName?_name f

/-- **A format is known by its name**, however its letters are written. -/
theorem ofAnyCase?_eq_some_iff {text : String} {f : LogFormat} :
    ofAnyCase? text = some f ↔ Names text f := by
  rw [ofAnyCase?, ofName?_eq_some_iff, Names, ← map_toLower_eq_iff f.isLower_of_mem_name,
    ← String.toList_inj]
  change (text.map Char.toLower).toList = _ ↔ _
  rw [String.toList_map]

end LogFormat

/-! ### Layers -/

/-- Where a setting comes from: what its variable says, if that makes sense, and otherwise what it
was before. -/
inductive Takes {α : Type} (Usable : String → α → Prop) (said : Option String) (old : α) :
    α → Prop where
  | given {text : String} {a : α} (hset : said = some text) (h : Usable text a) :
      Takes Usable said old a
  | kept (h : ∀ text a, said = some text → ¬ Usable text a) : Takes Usable said old old

theorem takes_getD {α : Type} {Usable : String → α → Prop} {read : String → Option α}
    (hread : ∀ text a, read text = some a ↔ Usable text a) (said : Option String) (old : α) :
    Takes Usable said old ((said.bind read).getD old) := by
  rcases hset : said with - | text
  · exact .kept (by simp)
  · rw [Option.bind_some]
    rcases hvalue : read text with - | a
    · refine .kept ?_
      rintro _ a ⟨⟩ ha
      rw [(hread text a).mpr ha] at hvalue
      contradiction
    · exact .given rfl ((hread text a).mp hvalue)

namespace Environment

/-- The settings `s'` are the settings `s` below the environment. -/
structure Layered (env : Environment) (s s' : Settings) : Prop where
  cap : Takes (Decimal.IsNumeral UInt64.size) (env "QUERYSPLIT_MAX_CHUNK_COUNT") s.cap s'.cap
  host : Takes Eq (env "QUERYSPLIT_API_HOST") s.service.host s'.service.host
  port : Takes (Decimal.IsNumeral UInt16.size) (env "QUERYSPLIT_API_PORT") s.service.port
    s'.service.port
  timeout : s'.service.timeout = s.service.timeout
  level : Takes Eq (env "QUERYSPLIT_LOG_LEVEL") s.logging.level s'.logging.level
  format : Takes LogFormat.Names (env "QUERYSPLIT_LOG_FORMAT") s.logging.format s'.logging.format
  file : s'.logging.file = s.logging.file

variable {env : Environment} {s : Settings}

theorem number?_eq (env : Environment) (name : String) (limit : Nat) :
    env.number? name limit = (env name).bind fun text =>
      (Decimal.readUnsigned? text.toList).bind fun n => if n < limit then some n else none := by
  rw [number?]
  rcases env name with - | text <;> rfl

theorem takes_number? (env : Environment) (name : String) (limit old : Nat) :
    Takes (Decimal.IsNumeral limit) (env name) old ((env.number? name limit).getD old) := by
  rw [number?_eq]
  refine takes_getD (fun text n => ?_) (env name) old
  simp only [Option.bind_eq_some_iff, Decimal.IsNumeral, ← Decimal.readUnsigned?_eq_some_iff]
  constructor
  · rintro ⟨m, hm, hlt⟩
    split_ifs at hlt with hlimit
    obtain rfl := Option.some.inj hlt
    exact ⟨hlimit, hm⟩
  · rintro ⟨hlimit, hn⟩
    exact ⟨n, hn, if_pos hlimit⟩

theorem takes_text (said : Option String) (old : String) :
    Takes Eq said old (said.getD old) := by
  have hread : ∀ text a : String, some text = some a ↔ text = a := fun _ _ => Option.some_inj
  have h := takes_getD hread said old
  rwa [Option.bind_fun_some] at h

/-- **Each variable has its own setting and no other.** -/
theorem layered_override (env : Environment) (s : Settings) : env.Layered s (env.override s) where
  cap := takes_number? env _ _ _
  host := takes_text _ _
  port := takes_number? env _ _ _
  timeout := rfl
  level := takes_text _ _
  format := takes_getD (fun _ _ => LogFormat.ofAnyCase?_eq_some_iff) _ _
  file := rfl

/-- What the environment has to say it says once. -/
theorem override_override (env : Environment) (s : Settings) :
    env.override (env.override s) = env.override s := by
  have hagain : ∀ {α : Type} (said : Option α) (old : α), said.getD (said.getD old) =
      said.getD old := by
    intro α said old
    cases said <;> rfl
  simp only [override, hagain]

end Environment

/-! ### Loading -/

/-- The run carries out its command under the cap. -/
def Invocation.RunsUnder (i : Invocation) (w : World) (cap : Nat) : Prop :=
  ∃ files logging complaint, i.run w =
    match i.command.carryOut { w with files } cap i.format with
    | .ok a => .ofAnswer a logging complaint
    | .error e => .failure files logging complaint e

namespace Settings

variable {t : FileTree} {env : Environment} {path text : String} {s : Settings}

/-- **A settings file is loaded below the environment**: each setting comes from its variable, if
that is set to something usable, and from the file otherwise. To ask the environment again changes
nothing, and every run with this file splits under the cap that has been found. -/
theorem loadWith_layered (htext : t.readText path = .ok text) (hs : parse text = some s) :
    ∃ s', loadWith t env path = .ok s' ∧ env.Layered s s' ∧ env.override s' = s' ∧
      ∀ (i : Invocation) (w : World), i.settings = some path → w.files = t →
        w.environment = env → i.RunsUnder w s'.cap := by
  have hload : loadWith t env path = .ok (env.override s) := by
    rw [loadWith, load, htext]
    simp only [hs]
    rfl
  refine ⟨env.override s, hload, env.layered_override s, env.override_override s, ?_⟩
  rintro i w hpath rfl rfl
  have hfound : i.settingsOf w = .ok (w.environment.override s) := by
    rw [Invocation.settingsOf, hpath]
    exact hload
  obtain ⟨files, logging, -, hrun⟩ := Invocation.run_of_settings hfound
  exact ⟨files, logging, _, hrun⟩

/-- A signed cap with zeros in front, a port that is too large, an empty level and a format in mixed
letters, over a file that says something else on each of them. -/
theorem loadWith_layered_mixed :
    let text := "split = [7]\n[api]\nport = 81\n[logging]\nlevel = \"debug\"\nfile = \"l\"\n"
    let t : FileTree := ⟨[(["c"], text.toUTF8)], [], []⟩
    let env : Environment := .ofList [("QUERYSPLIT_MAX_CHUNK_COUNT", "+0012"),
      ("QUERYSPLIT_API_PORT", "65536"), ("QUERYSPLIT_LOG_LEVEL", ""),
      ("QUERYSPLIT_LOG_FORMAT", "jSoN")]
    let s : Settings := ⟨7, ⟨"0.0.0.0", 81, 30⟩, ⟨"debug", .pretty, some "l"⟩⟩
    let s' : Settings := ⟨12, ⟨"0.0.0.0", 81, 30⟩, ⟨"", .json, some "l"⟩⟩
    t.readText "c" = .ok text ∧ parse text = some s ∧ loadWith t env "c" = .ok s' ∧
      env.Layered s s' ∧ env.override s' = s' ∧
      Invocation.RunsUnder ⟨.sample none, some "c", .table⟩ ⟨t, env, none, .empty, ⟨0, 0⟩⟩ 12 := by
  intro text t env s s'
  have htext : t.readText "c" = .ok text := by
    have hread : t.read "c" = .ok text.toUTF8 := by rfl
    rw [FileTree.readText, hread]
    simp only [bind, Except.bind, Text.Marks.fromUTF8?_toUTF8]
  have hs : parse text = some s := by decide +kernel
  have hload : loadWith t env "c" = .ok s' := by decide +kernel
  obtain ⟨found, hfound, hlayered, hagain, hruns⟩ := @loadWith_layered t env "c" text s htext hs
  obtain rfl := Except.ok.inj (hload.symm.trans hfound)
  exact ⟨htext, hs, hload, hlayered, hagain, hruns _ _ rfl rfl rfl⟩

end Settings

end QueryPrep
