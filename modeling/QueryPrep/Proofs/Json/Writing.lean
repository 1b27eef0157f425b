import Mathlib.Algebra.Ring.Int.Defs
import QueryPrep.Proofs.Json.Tree
import QueryPrep.Proofs.Text.Decimal

/-!
# What is written can be read

`Value.render` writes a value in one of its texts: strings with every quote, backslash and control
character escaped, integers as their plain numerals, containers without white space. So whoever
reads a text that was written gets the value back (`Value.IsText.ofText?`), whatever characters its
strings hold.

Main result: what is written of a value whose numbers are integers of 64 bits is one of its texts
(`Value.isText_write`).
-/

namespace QueryPrep

namespace Json

namespace Numeral

theorem isDigits_digits (n : Nat) : IsDigits (Decimal.digits n) :=
  ⟨Decimal.digits_ne_nil n, fun _ => Decimal.isDigit_of_mem_digits⟩

/-- A number of 64 bits is taken as a whole. -/
theorem absorb_eq (ds : List Char) (n : Nat)
    (h : ds.foldl (fun n c => n * 10 + Decimal.digitValue c) n < UInt64.size) :
    absorb n ds = (ds.foldl (fun n c => n * 10 + Decimal.digitValue c) n, []) := by
  induction ds generalizing n with
  | nil => rfl
  | cons c ds ih =>
      have hle : n * 10 + Decimal.digitValue c ≤
          ds.foldl (fun n c => n * 10 + Decimal.digitValue c) (n * 10 + Decimal.digitValue c) := by
        rw [Decimal.foldl_digits]
        exact Nat.le_trans (Nat.le_mul_of_pos_right _ (Nat.pow_pos (by decide)))
          (Nat.le_add_right _ _)
      rw [absorb, if_pos (Nat.lt_of_le_of_lt hle h), ih _ h]
      rfl

/-- The numeral of an integer. -/
def ofInt (n : Int) : Numeral :=
  ⟨n < 0, Decimal.digits n.natAbs, none, none⟩

theorem isText_ofInt (n : Int) : (ofInt n).IsText (Decimal.write n) := by
  refine ⟨⟨isDigits_digits _, Decimal.digits_eq_of_head _, ?_, ?_⟩, [], .none, ?_⟩
  · rintro ds ⟨⟩
  · rintro e ⟨⟩
  · rcases n with n | n
    · simp [ofInt, fractionText, Decimal.write]
    · simp [ofInt, fractionText, Decimal.write, Int.negSucc_lt_zero]

/-- **Every integer of 64 bits, with a sign or without, is read as this integer.** -/
theorem number?_ofInt {n : Int} (hleast : -2 ^ 63 ≤ n) (hgreatest : n < 2 ^ 64) :
    (ofInt n).number? = some (.integer n) := by
  have hsize : n.natAbs < UInt64.size := by
    have hvalue : UInt64.size = 2 ^ 64 := rfl
    omega
  have habsorb : absorb 0 (Decimal.digits n.natAbs) = (n.natAbs, []) := by
    have hvalue := Decimal.value_digits n.natAbs
    rw [Decimal.value] at hvalue
    rw [absorb_eq _ _ (by rw [hvalue]; exact hsize), hvalue]
  unfold number?
  simp only [ofInt, habsorb, Option.isSome_none, List.isEmpty_nil, Bool.not_true, Bool.or_self,
    Bool.false_eq_true, if_false]
  rcases Int.lt_or_le n 0 with hneg | hnonneg
  · have hbounds : 0 < n.natAbs ∧ n.natAbs ≤ 1 <<< 63 := by
      have hshift : (1 <<< 63 : Nat) = 2 ^ 63 := rfl
      omega
    have habs : -(n.natAbs : Int) = n := by omega
    rw [decide_eq_true hneg, if_pos hbounds, habs]
    rfl
  · have habs : (n.natAbs : Int) = n := by omega
    rw [decide_eq_false (Int.not_lt.mpr hnonneg), habs]
    rfl

end Numeral

namespace Value

/-! ### Strings -/

theorem hexDigit_spec : ∀ n < 16, Hexadecimal.isDigit (hexDigit n) = true ∧
    Hexadecimal.digitValue (hexDigit n) = n := by
  decide

/-- The escape of a control character. -/
theorem isUnit_writeChar {c : Char} (h : c < ' ') :
    Token.IsUnit c.toNat ['0', '0', hexDigit (c.toNat / 16), hexDigit (c.toNat % 16)] := by
  have hlt : c.toNat < 32 := h
  obtain ⟨hdigit, hvalue⟩ := hexDigit_spec (c.toNat / 16) (by omega)
  obtain ⟨hdigit', hvalue'⟩ := hexDigit_spec (c.toNat % 16) (by omega)
  have hzero : Hexadecimal.isDigit '0' = true ∧ Hexadecimal.digitValue '0' = 0 := by decide
  refine ⟨rfl, ?_, ?_⟩
  · simp [hdigit, hdigit', hzero.1]
  · simp only [Hexadecimal.value, List.foldl_cons, List.foldl_nil, hzero.2, hvalue, hvalue']
    omega

/-- Each character is written so that it is read as itself. -/
theorem isStringText_writeChar_append (c : Char) {s cs : List Char} (h : Token.IsStringText s cs) :
    Token.IsStringText (c :: s) (writeChar c ++ cs) := by
  have hshort : ∀ e d, (e, d) ∈ Token.shortEscapes → c = d →
      Token.IsStringText (c :: s) ('\\' :: e :: cs) := by
    rintro e d hmem rfl
    exact .short hmem h
  unfold writeChar
  split_ifs with hquote hslash hn hr ht hb hf hcontrol
  · exact hshort _ _ (by decide) hquote
  · exact hshort _ _ (by decide) hslash
  · exact hshort _ _ (by decide) hn
  · exact hshort _ _ (by decide) hr
  · exact hshort _ _ (by decide) ht
  · exact hshort _ _ (by decide) hb
  · exact hshort _ _ (by decide) hf
  · have hlt : c.toNat < 32 := hcontrol
    have hunit := Token.IsStringText.unit (isUnit_writeChar hcontrol) (by omega) h
    rwa [Char.ofNat_toNat] at hunit
  · exact .plain (Char.not_lt.mp hcontrol) hquote hslash h

theorem isStringText_flatMap (s : List Char) : Token.IsStringText s (s.flatMap writeChar) := by
  induction s with
  | nil => exact .nil
  | cons c s ih => exact isStringText_writeChar_append c ih

theorem isTokenText_writeString (s : String) :
    Token.IsTokenText (.string (some s)) (writeString s) := by
  have h := Token.IsTokenText.string (isStringText_flatMap s.toList)
  rwa [String.ofList_toList] at h

/-! ### Values -/

mutual

/-- All numbers of the value are integers of 64 bits, with a sign or without. -/
def isPlain : Value → Bool
  | number (.integer n) => -2 ^ 63 ≤ n && n < 2 ^ 64
  | number (.real _) => false
  | array items => itemsArePlain items
  | object members => membersArePlain members
  | _ => true

def itemsArePlain : List Value → Bool
  | [] => true
  | v :: vs => isPlain v && itemsArePlain vs

def membersArePlain : List (String × Value) → Bool
  | [] => true
  | (_, v) :: ms => isPlain v && membersArePlain ms

end

theorem itemsArePlain_iff {vs : List Value} :
    itemsArePlain vs = true ↔ ∀ v ∈ vs, v.isPlain = true := by
  induction vs with
  | nil => simp [itemsArePlain]
  | cons v vs ih => simp [itemsArePlain, ih]

theorem isText_int {n : Int} (h : (int n).isPlain = true) : (int n).IsText (int n).write := by
  simp only [int, isPlain, Bool.and_eq_true, decide_eq_true_eq] at h
  obtain ⟨hleast, hgreatest⟩ := h
  refine ⟨.number (.ofInt n), ?_, (Token.IsTokenText.number (Numeral.isText_ofInt n)).isText⟩
  rw [Node.meaning?, Numeral.number?_ofInt hleast hgreatest]
  rfl

mutual

/-- **A value is written in one of its texts**, whatever its strings hold. -/
theorem isText_write : (v : Value) → v.isPlain = true → v.IsText v.write
  | null, _ => ⟨.null, rfl, Token.IsTokenText.null.isText⟩
  | bool true, _ => ⟨.bool true, rfl, Token.IsTokenText.true.isText⟩
  | bool false, _ => ⟨.bool false, rfl, Token.IsTokenText.false.isText⟩
  | number (.integer n), h => isText_int h
  | string s, _ => ⟨.string (some s), rfl, (isTokenText_writeString s).isText⟩
  | array [], _ => ⟨.array [] true, rfl,
      Token.IsTokenText.openArray.isText.append Token.IsTokenText.closeArray.isText⟩
  | array (v :: vs), h => by
      obtain ⟨hv, hvs⟩ := (Bool.and_eq_true _ _).mp h
      obtain ⟨n, hn, htext⟩ := isText_write v hv
      obtain ⟨ns, hns, hrest⟩ := isText_writeItems vs hvs
      refine ⟨.array (n :: ns) true, ?_, ?_⟩
      · exact Node.meaning?_eq_array_iff.mpr
          ⟨n :: ns, rfl, Node.itemMeanings?_cons_eq_some_iff.mpr ⟨v, vs, hn, hns, rfl⟩⟩
      · exact ((Token.IsTokenText.openArray.isText.append htext).append hrest).append
          Token.IsTokenText.closeArray.isText
  | object [], _ => ⟨.object [] true, rfl,
      Token.IsTokenText.openObject.isText.append Token.IsTokenText.closeObject.isText⟩
  | object ((k, v) :: ms), h => by
      obtain ⟨hv, hms⟩ := (Bool.and_eq_true _ _).mp h
      obtain ⟨n, hn, htext⟩ := isText_write v hv
      obtain ⟨ns, hns, hrest⟩ := isText_writeMembers ms hms
      refine ⟨.object ((some k, n) :: ns) true, ?_, ?_⟩
      · exact Node.meaning?_eq_object_iff.mpr ⟨_, rfl,
          Node.memberMeanings?_cons_eq_some_iff.mpr ⟨k, v, ms, rfl, hn, hns, rfl⟩⟩
      · have hmember := (isTokenText_writeString k).isText.append
          (Token.IsTokenText.colon.isText.append htext)
        simpa [write, Node.tokens] using
          ((Token.IsTokenText.openObject.isText.append hmember).append hrest).append
            Token.IsTokenText.closeObject.isText

theorem isText_writeItems : (vs : List Value) → itemsArePlain vs = true →
    ∃ ns, Node.itemMeanings? ns = some vs ∧ Token.IsText (Node.itemTokens ns) (writeItems vs)
  | [], _ => ⟨[], rfl, .nil Token.isBlank_nil⟩
  | v :: vs, h => by
      obtain ⟨hv, hvs⟩ := (Bool.and_eq_true _ _).mp h
      obtain ⟨n, hn, htext⟩ := isText_write v hv
      obtain ⟨ns, hns, hrest⟩ := isText_writeItems vs hvs
      refine ⟨n :: ns, Node.itemMeanings?_cons_eq_some_iff.mpr ⟨v, vs, hn, hns, rfl⟩, ?_⟩
      exact (Token.IsTokenText.comma.isText.append htext).append hrest

theorem isText_writeMembers : (ms : List (String × Value)) → membersArePlain ms = true →
    ∃ ns, Node.memberMeanings? ns = some ms ∧
      Token.IsText (Node.memberTokens ns) (writeMembers ms)
  | [], _ => ⟨[], rfl, .nil Token.isBlank_nil⟩
  | (k, v) :: ms, h => by
      obtain ⟨hv, hms⟩ := (Bool.and_eq_true _ _).mp h
      obtain ⟨n, hn, htext⟩ := isText_write v hv
      obtain ⟨ns, hns, hrest⟩ := isText_writeMembers ms hms
      refine ⟨(some k, n) :: ns,
        Node.memberMeanings?_cons_eq_some_iff.mpr ⟨k, v, ms, rfl, hn, hns, rfl⟩, ?_⟩
      have hkey := (isTokenText_writeString k).isText.append
        (Token.IsTokenText.colon.isText.append htext)
      simpa [writeMembers, Node.memberTokens] using
        (Token.IsTokenText.comma.isText.append hkey).append hrest

end

/-- The text that is shown of a value. -/
theorem isText_render {v : Value} (h : v.isPlain = true) : v.IsText v.render.toList := by
  rw [render, String.toList_ofList]
  exact isText_write v h

/-! ### On one line -/

theorem space_le_of_isDigit {c : Char} (h : c.isDigit = true) : ' ' ≤ c := by
  simp only [Char.isDigit, Bool.and_eq_true, decide_eq_true_eq] at h
  have hlo : 48 ≤ c.toNat := h.1
  have hspace : ' '.toNat = 32 := rfl
  exact Char.le_def.mpr (UInt32.le_iff_toNat_le.mpr (by show ' '.toNat ≤ c.toNat; omega))

theorem space_le_of_all {cs : List Char} (h : cs.all (' ' ≤ ·) = true) : ∀ c ∈ cs, ' ' ≤ c :=
  fun c hc => of_decide_eq_true (List.all_eq_true.mp h c hc)

theorem space_le_hexDigit : ∀ n < 16, ' ' ≤ hexDigit n := by
  decide

/-- Control characters are escaped. -/
theorem space_le_of_mem_writeChar {c d : Char} (h : d ∈ writeChar c) : ' ' ≤ d := by
  unfold writeChar at h
  split_ifs at h with hquote hslash hn hr ht hb hf hcontrol
  all_goals simp only [List.mem_cons, List.not_mem_nil, or_false] at h
  iterate 7 rcases h with rfl | rfl <;> decide
  · have hlt : c.toNat < 32 := hcontrol
    rcases h with rfl | rfl | rfl | rfl | rfl | rfl
    · decide
    · decide
    · decide
    · decide
    · exact space_le_hexDigit _ (by omega)
    · exact space_le_hexDigit _ (by omega)
  · exact h ▸ Char.not_lt.mp hcontrol

theorem space_le_of_mem_writeString {s : String} {c : Char} (h : c ∈ writeString s) : ' ' ≤ c := by
  rcases List.mem_append.mp h with h | h
  · rcases List.mem_cons.mp h with rfl | h
    · decide
    · obtain ⟨d, -, hc⟩ := List.mem_flatMap.mp h
      exact space_le_of_mem_writeChar hc
  · obtain rfl := List.mem_singleton.mp h
    decide

theorem space_le_of_mem_decimal {n : Int} {c : Char} (h : c ∈ Decimal.write n) : ' ' ≤ c := by
  rcases n with n | n
  · exact space_le_of_isDigit (Decimal.isDigit_of_mem_digits h)
  · rcases List.mem_cons.mp h with rfl | h
    · decide
    · exact space_le_of_isDigit (Decimal.isDigit_of_mem_digits h)

mutual

/-- **A value is written without control characters**, hence on one line. -/
theorem space_le_of_mem_write : (v : Value) → v.isPlain = true → ∀ c ∈ v.write, ' ' ≤ c
  | null, _ => space_le_of_all rfl
  | bool true, _ => space_le_of_all rfl
  | bool false, _ => space_le_of_all rfl
  | number (.integer n), _ => fun _ => space_le_of_mem_decimal
  | string s, _ => fun _ => space_le_of_mem_writeString
  | array [], _ => space_le_of_all rfl
  | array (v :: vs), h => by
      obtain ⟨hv, hvs⟩ := (Bool.and_eq_true _ _).mp h
      simp only [write, List.forall_mem_append, List.forall_mem_cons]
      exact ⟨⟨⟨by decide, space_le_of_mem_write v hv⟩, space_le_of_mem_writeItems vs hvs⟩,
        by decide, List.forall_mem_nil _⟩
  | object [], _ => space_le_of_all rfl
  | object ((k, v) :: ms), h => by
      obtain ⟨hv, hms⟩ := (Bool.and_eq_true _ _).mp h
      simp only [write, List.forall_mem_append, List.forall_mem_cons]
      exact ⟨⟨⟨⟨by decide, fun _ => space_le_of_mem_writeString⟩, by decide,
        space_le_of_mem_write v hv⟩, space_le_of_mem_writeMembers ms hms⟩, by decide,
        List.forall_mem_nil _⟩

theorem space_le_of_mem_writeItems : (vs : List Value) → itemsArePlain vs = true →
    ∀ c ∈ writeItems vs, ' ' ≤ c
  | [], _ => space_le_of_all rfl
  | v :: vs, h => by
      obtain ⟨hv, hvs⟩ := (Bool.and_eq_true _ _).mp h
      simp only [writeItems, List.forall_mem_append, List.forall_mem_cons]
      exact ⟨⟨by decide, space_le_of_mem_write v hv⟩, space_le_of_mem_writeItems vs hvs⟩

theorem space_le_of_mem_writeMembers : (ms : List (String × Value)) →
    membersArePlain ms = true → ∀ c ∈ writeMembers ms, ' ' ≤ c
  | [], _ => space_le_of_all rfl
  | (k, v) :: ms, h => by
      obtain ⟨hv, hms⟩ := (Bool.and_eq_true _ _).mp h
      simp only [writeMembers, List.forall_mem_append, List.forall_mem_cons]
      exact ⟨⟨⟨by decide, fun _ => space_le_of_mem_writeString⟩, by decide,
        space_le_of_mem_write v hv⟩, space_le_of_mem_writeMembers ms hms⟩

end

/-! ### Reading back -/

variable {v : Value}

/-- A value in an object of its own, however the value is written. -/
theorem IsText.member {cs : List Char} (h : v.IsText cs) (k : String) :
    (object [(k, v)]).IsText ('\x7b' :: writeString k ++ ':' :: cs ++ ['\x7d']) := by
  obtain ⟨n, hn, htext⟩ := h
  refine ⟨.object [(some k, n)] true, ?_, ?_⟩
  · exact Node.meaning?_eq_member_iff.mpr ⟨n, rfl, hn⟩
  · have hmember := (isTokenText_writeString k).isText.append
      (Token.IsTokenText.colon.isText.append htext)
    simpa [Node.tokens, Node.memberTokens] using
      (Token.IsTokenText.openObject.isText.append hmember).append
        Token.IsTokenText.closeObject.isText

theorem IsText.blank_append {cs blanks : List Char} (hblanks : Token.IsBlank blanks)
    (h : v.IsText cs) : v.IsText (blanks ++ cs) := by
  obtain ⟨n, hn, htext⟩ := h
  exact ⟨n, hn, htext.blank_append hblanks⟩

theorem IsText.append_blank {cs blanks : List Char} (h : v.IsText cs)
    (hblanks : Token.IsBlank blanks) : v.IsText (cs ++ blanks) := by
  obtain ⟨n, hn, htext⟩ := h
  have happend := htext.append (.nil hblanks)
  rw [List.append_nil] at happend
  exact ⟨n, hn, happend⟩

/-- The value of a text that is one document. -/
def ofText? (text : String) : Option Value :=
  (Document.read (fun n => (n.keep Node.maxLevels).elim (.error .malformed) .ok) text).toOption

/-- **A text of a value is read as this value**, if that is not nested too deep. -/
theorem IsText.ofText? {text : String} (h : v.IsText text.toList)
    (hdepth : v.depth ≤ Node.maxLevels) : ofText? text = some v := by
  obtain ⟨n, hn, hdocument⟩ := h.document
  have hkeep := (Node.keep_eq_some_iff n Node.maxLevels v).mpr ⟨hn, hdepth⟩
  rw [Value.ofText?, Document.read, hdocument]
  simp [hkeep, bind, Except.bind, Except.toOption]

end Value

end Json

end QueryPrep
