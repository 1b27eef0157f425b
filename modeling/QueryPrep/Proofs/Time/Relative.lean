import Mathlib.Data.List.Basic
import QueryPrep.Proofs.Reading
import QueryPrep.Time.Timestamp

/-!
# Instants relative to now

A text that starts with `now` is `now` itself or says how long before now an instant is
(`IsBefore`): behind a minus sign stands a text without blanks, and it is up to the durations what
that text means. Blanks may stand around the sign and nowhere else, so the text of the duration is
found in one way only (`offsetText?_eq_some_iff`).

Main result: a relative instant is exact, is refused with the reason of its duration or for what
goes beyond the range, and moves with the clock; no other text depends on the clock at all
(`parse_relative`).
-/

namespace QueryPrep.Timestamp

open QueryPrep.Text (IsBlankRun isBlank)

/-- The text says how long before now: blanks, a minus sign, blanks and a text without blanks, all
behind `now`. -/
def IsBefore (s d : List Char) : Prop :=
  ∃ b b', IsBlankRun b ∧ IsBlankRun b' ∧ d ≠ [] ∧ (∀ c ∈ d, isBlank c = false) ∧
    s = ['n', 'o', 'w'] ++ b ++ ['-'] ++ b' ++ d

variable {s d rest : List Char} {text : String} {now v : Int} {e : TimeError}

/-! ### What stands behind now -/

theorem offsetText?_append {b b' : List Char} (hb : IsBlankRun b) (hb' : IsBlankRun b')
    (hne : d ≠ []) (hd : ∀ c ∈ d, isBlank c = false) :
    offsetText? (b ++ '-' :: (b' ++ d)) = some d := by
  have hsign : Text.trimStart (b ++ '-' :: (b' ++ d)) = '-' :: (b' ++ d) := by
    refine Text.trimStart_append hb ?_
    rintro c ⟨⟩
    decide
  have hrest : Text.trimStart (b' ++ d) = d :=
    Text.trimStart_append hb' fun c hc => hd c (List.mem_of_mem_head? hc)
  rw [offsetText?, hsign]
  simp only [hrest]
  rw [if_neg]
  simpa [hne] using hd

/-- **The text of a duration is found behind the sign**, in the one place where it can be. -/
theorem offsetText?_eq_some_iff :
    offsetText? rest = some d ↔ IsBefore ('n' :: 'o' :: 'w' :: rest) d := by
  constructor
  · intro h
    obtain ⟨b, hb, hrest⟩ := Text.exists_eq_append_trimStart rest
    rw [offsetText?] at h
    split at h
    · rename_i cs hsign
      obtain ⟨b', hb', hcs⟩ := Text.exists_eq_append_trimStart cs
      dsimp only at h
      split at h
      · contradiction
      · rename_i hplain
        obtain rfl := Option.some.inj h
        rw [Bool.or_eq_true, not_or, List.isEmpty_iff, Bool.not_eq_true, List.any_eq_false]
          at hplain
        refine ⟨b, b', hb, hb', hplain.1, fun c hc => Bool.not_eq_true _ ▸ hplain.2 c hc, ?_⟩
        have hsplit : rest = b ++ '-' :: (b' ++ Text.trimStart cs) := by
          rw [← hcs, ← hsign]
          exact hrest
        rw [hsplit]
        simp
    · contradiction
  · rintro ⟨b, b', hb, hb', hne, hd, heq⟩
    have hrest : rest = b ++ '-' :: (b' ++ d) := by simpa using heq
    rw [hrest]
    exact offsetText?_append hb hb' hne hd

/-- There is one text behind the sign. -/
theorem IsBefore.unique {d' : List Char} (h : IsBefore s d) (h' : IsBefore s d') : d = d' := by
  obtain ⟨b, b', -, -, -, -, hs⟩ := id h
  have hnow : s = 'n' :: 'o' :: 'w' :: (b ++ '-' :: (b' ++ d)) := by simpa using hs
  rw [hnow] at h h'
  exact Option.some.inj
    ((offsetText?_eq_some_iff.mpr h).symm.trans (offsetText?_eq_some_iff.mpr h'))

theorem IsBefore.ne_now (h : IsBefore s d) : s ≠ ['n', 'o', 'w'] := by
  obtain ⟨b, b', -, -, -, -, rfl⟩ := h
  simp

theorem relative_eq_ok_iff : relative text rest now = .ok v ↔ (rest = [] ∧ v = now) ∨
    ∃ d n, offsetText? rest = some d ∧ Duration.parse (String.ofList d) = .ok n ∧
      Millis.least ≤ now - n ∧ v = now - n := by
  rcases rest with - | ⟨c, cs⟩
  · have hnone : offsetText? [] = none := rfl
    simp [relative, hnone, eq_comm]
  · rw [relative]
    rcases hd : offsetText? (c :: cs) with - | d
    · simp
    · rcases hn : Duration.parse (String.ofList d) with e | n
      · simp [hn]
      · by_cases hle : Millis.least ≤ now - n
        · simp [hn, hle, eq_comm]
        · simp [hn, hle]

theorem relative_eq_error_iff : relative text rest now = .error e ↔
    (∃ d, offsetText? rest = some d ∧ Duration.parse (String.ofList d) = .error e) ∨
    (∃ d n, offsetText? rest = some d ∧ Duration.parse (String.ofList d) = .ok n ∧
      now - n < Millis.least ∧ e = .outOfRange text) ∨
    rest ≠ [] ∧ offsetText? rest = none ∧ e = .badTimestamp text := by
  rcases rest with - | ⟨c, cs⟩
  · have hnone : offsetText? [] = none := rfl
    simp [relative, hnone]
  · rw [relative]
    rcases hd : offsetText? (c :: cs) with - | d
    · simp [eq_comm]
    · rcases hn : Duration.parse (String.ofList d) with e' | n
      · simp [hn, eq_comm]
      · by_cases hle : Millis.least ≤ now - n
        · simp [hn, hle, Int.not_lt.mpr hle]
        · simp [hn, hle, Int.not_le.mp hle, eq_comm]

/-! ### Texts -/

theorem afterNow?_eq_some_iff : afterNow? s = some rest ↔ s = 'n' :: 'o' :: 'w' :: rest := by
  unfold afterNow?
  split
  · simp
  · rename_i hnot
    simp only [reduceCtorEq, false_iff]
    exact fun h => hnot rest h

/-- What starts with `now` is no number. -/
theorem parse_of_now (h : Text.trim text.toList = 'n' :: 'o' :: 'w' :: rest) :
    parse text now = relative (String.ofList (Text.trim text.toList)) rest now := by
  have hnumber : Decimal.readInt? ('n' :: 'o' :: 'w' :: rest) = none := rfl
  rw [parse]
  simp only [h, hnumber, afterNow?_eq_some_iff.mpr rfl, Option.bind_none]

/-- What does not start with `now` is read without looking at the clock. -/
theorem parse_congr (h : ¬ ['n', 'o', 'w'] <+: Text.trim text.toList) (now now' : Int) :
    parse text now = parse text now' := by
  have hnone : afterNow? (Text.trim text.toList) = none := by
    rw [Option.eq_none_iff_forall_ne_some]
    intro rest hrest
    exact h ⟨rest, (afterNow?_eq_some_iff.mp hrest).symm⟩
  rw [parse, parse]
  simp only [hnone]

section

variable (h : ['n', 'o', 'w'] <+: Text.trim text.toList)
include h

theorem parse_eq_ok_iff : parse text now = .ok v ↔
    (Text.trim text.toList = ['n', 'o', 'w'] ∧ v = now) ∨
    ∃ d n, IsBefore (Text.trim text.toList) d ∧ Duration.parse (String.ofList d) = .ok n ∧
      Millis.least ≤ now - n ∧ v = now - n := by
  obtain ⟨rest, hs⟩ := h
  have hs' : Text.trim text.toList = 'n' :: 'o' :: 'w' :: rest := hs.symm
  rw [parse_of_now hs', relative_eq_ok_iff]
  simp [offsetText?_eq_some_iff, hs']

theorem parse_eq_error_iff : parse text now = .error e ↔
    (∃ d, IsBefore (Text.trim text.toList) d ∧ Duration.parse (String.ofList d) = .error e) ∨
    (∃ d n, IsBefore (Text.trim text.toList) d ∧ Duration.parse (String.ofList d) = .ok n ∧
      now - n < Millis.least ∧ e = .outOfRange (String.ofList (Text.trim text.toList))) ∨
    Text.trim text.toList ≠ ['n', 'o', 'w'] ∧ (∀ d, ¬ IsBefore (Text.trim text.toList) d) ∧
      e = .badTimestamp (String.ofList (Text.trim text.toList)) := by
  obtain ⟨rest, hs⟩ := h
  have hs' : Text.trim text.toList = 'n' :: 'o' :: 'w' :: rest := hs.symm
  rw [parse_of_now hs', relative_eq_error_iff]
  simp [Option.eq_none_iff_forall_ne_some, offsetText?_eq_some_iff, hs']

/-- No relative instant is later than now. -/
theorem le_of_parse (hv : parse text now = .ok v) : v ≤ now := by
  obtain ⟨-, rfl⟩ | ⟨d, n, -, -, -, rfl⟩ := (parse_eq_ok_iff h).mp hv
  · exact Int.le_refl _
  · omega

/-- A relative instant moves as far as the clock does. -/
theorem sub_eq_of_parse {t t' v v' : Int} (hv : parse text t = .ok v)
    (hv' : parse text t' = .ok v') : v' - v = t' - t := by
  obtain ⟨hnow, rfl⟩ | ⟨d, n, hd, hn, -, rfl⟩ := (parse_eq_ok_iff h).mp hv
  · obtain ⟨-, rfl⟩ | ⟨d', n', hd', -, -, -⟩ := (parse_eq_ok_iff h).mp hv'
    · rfl
    · exact absurd hnow hd'.ne_now
  · obtain ⟨hnow, -⟩ | ⟨d', n', hd', hn', -, rfl⟩ := (parse_eq_ok_iff h).mp hv'
    · exact absurd hnow hd.ne_now
    · -- it is the same text behind the sign, so the same duration
      obtain rfl := hd.unique hd'
      obtain rfl := Except.ok.inj (hn.symm.trans hn')
      omega

end

/-- **A relative instant is read exactly, and only what is relative depends on now.** A text that
starts with `now` is `now` or a duration before it, is refused with the reason of the duration, for
an instant that is out of range or for having neither form; so an instant is never later than now,
and between two clocks it moves as far as they do. -/
theorem parse_relative (text : String) :
    let s := Text.trim text.toList
    (['n', 'o', 'w'] <+: s →
      (∀ now v, parse text now = .ok v ↔ (s = ['n', 'o', 'w'] ∧ v = now) ∨
        ∃ d n, IsBefore s d ∧ Duration.parse (String.ofList d) = .ok n ∧
          Millis.least ≤ now - n ∧ v = now - n) ∧
      (∀ now e, parse text now = .error e ↔
        (∃ d, IsBefore s d ∧ Duration.parse (String.ofList d) = .error e) ∨
        (∃ d n, IsBefore s d ∧ Duration.parse (String.ofList d) = .ok n ∧
          now - n < Millis.least ∧ e = .outOfRange (String.ofList s)) ∨
        s ≠ ['n', 'o', 'w'] ∧ (∀ d, ¬ IsBefore s d) ∧ e = .badTimestamp (String.ofList s)) ∧
      (∀ now v, parse text now = .ok v → v ≤ now) ∧
      ∀ t t' v v', parse text t = .ok v → parse text t' = .ok v' → v' - v = t' - t) ∧
    (¬ ['n', 'o', 'w'] <+: s → ∀ t t', parse text t = parse text t') := by
  intro s
  exact ⟨fun h => ⟨fun _ _ => parse_eq_ok_iff h, fun _ _ => parse_eq_error_iff h,
    fun _ _ => le_of_parse h, fun _ _ _ _ => sub_eq_of_parse h⟩, parse_congr⟩

/-- Wide blanks around the sign, at a clock that is late enough and at one that is not. -/
theorem parse_relative_early :
    let text := " now\u2003-\u30001s1ms\t"
    parse text 0 = .ok (-1001) ∧
      parse text Millis.least = .error (.outOfRange "now\u2003-\u30001s1ms") ∧
      parse "2022-02-06" 0 = parse "2022-02-06" Millis.least := by
  intro text
  have hplain : ∀ c ∈ "1s1ms".toList, isBlank c = false := by simp [isBlank]
  have hbefore : IsBefore (Text.trim text.toList) "1s1ms".toList :=
    ⟨['\u2003'], ['\u3000'], by decide, by decide, by decide, hplain, by decide +kernel⟩
  have hduration : Duration.parse (String.ofList "1s1ms".toList) = .ok 1001 := by decide +kernel
  obtain ⟨hnow, -⟩ := parse_relative text
  obtain ⟨hok, herror, -, -⟩ := hnow ⟨"\u2003-\u30001s1ms".toList, by decide +kernel⟩
  obtain ⟨-, hother⟩ := parse_relative "2022-02-06"
  refine ⟨?_, ?_, hother (by decide +kernel) _ _⟩
  · exact (hok _ _).mpr (.inr ⟨_, 1001, hbefore, hduration, by decide, by decide⟩)
  · exact (herror _ _).mpr
      (.inr (.inl ⟨_, 1001, hbefore, hduration, by decide, by decide +kernel⟩))

end QueryPrep.Timestamp
