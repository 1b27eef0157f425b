import QueryPrep.Proofs.Json.Gap
import QueryPrep.Proofs.Split.Order
import QueryPrep.Proofs.Time.Duration
import QueryPrep.Proofs.Time.Rendering
import QueryPrep.Split.Reading

/-!
# Quantities as numbers and as texts

A number of milliseconds and its numeral as a text come to the same instant, and to the same span
unless the number is negative, because a duration has no sign. An order does not look at its
quantities other than for their instants and spans, so an order that is read from a document with a
gap is resolved as it would be with anything else in the gap that comes to the same
(`IsOrderShape.exists_of_refill`). What is no quantity at all is refused there
(`IsOrderShape.read_eq_mismatch`).
-/

namespace QueryPrep

open QueryPrep.Json

/-! ### Numbers and their numerals -/

theorem Duration.parse_digits {n : Nat} (h : n ≤ Millis.greatest) :
    parse (String.ofList (Decimal.digits n)) = .ok n := by
  have hplain : Text.trim (Decimal.digits n) = Decimal.digits n :=
    (Text.isPlain_of_isDigit fun _ => Decimal.isDigit_of_mem_digits).trim_eq
  have hvalue : value? (Decimal.digits n) = some (some n) := by
    rw [value?_of_isDigits ⟨Decimal.digits_ne_nil n, fun _ => Decimal.isDigit_of_mem_digits⟩,
      Decimal.value_digits, inRange?_of_le h]
  rw [parse, String.toList_ofList, hplain, hvalue]

namespace Quantity

variable {n : Int} {v : Value}

/-- Both are the same instant, whenever they are looked at. -/
def SameInstant (q q' : Quantity) : Prop :=
  ∀ now, q.instant now = q'.instant now

/-- Both are the same span. -/
def SameSpan (q q' : Quantity) : Prop :=
  q.span = q'.span

theorem sameInstant_refl (q : Quantity) : SameInstant q q :=
  fun _ => rfl

theorem sameSpan_refl (q : Quantity) : SameSpan q q :=
  rfl

/-- **A number and its numeral are the same instant.** -/
theorem sameInstant_render (h : Millis.Fits n) :
    SameInstant (.millis n) (.text (Decimal.render n)) :=
  fun now => (Timestamp.parse_write h now).symm

/-- **A number that is not negative and its numeral are the same span.** -/
theorem sameSpan_render (h : Millis.Fits n) (hn : 0 ≤ n) :
    SameSpan (.millis n) (.text (Decimal.render n)) := by
  obtain ⟨k, rfl⟩ := Int.eq_ofNat_of_zero_le hn
  have hparse : Duration.parse (Decimal.render k) = .ok k := Duration.parse_digits h.2
  rw [SameSpan, span, span, hparse]
  rfl

/-- The quantity that a value is. -/
def ofValue? : Value → Option Quantity
  | .number (.integer n) => if Millis.Fits n then some (.millis n) else none
  | .string s => some (.text s)
  | _ => none

/-- The values that are quantities: texts, and integers of 64 bits. -/
def IsGivenBy (v : Value) : Prop :=
  (∃ s, v = .string s) ∨ ∃ n, Millis.Fits n ∧ v = .int n

theorem ofValue?_eq_none_iff : ofValue? v = none ↔ ¬ IsGivenBy v := by
  rcases v with - | - | ⟨n | x⟩ | s | - | - <;> simp [ofValue?, IsGivenBy, Value.int]

/-- A value is read as the quantity that it is, or it is not what was wanted. -/
theorem ofNode_of_meaning? {m : Node} (hm : m.meaning? = some v)
    (hdepth : v.depth ≤ Node.maxLevels - 1) :
    ofNode m = (ofValue? v).elim (.error .mismatch) .ok := by
  rw [ofNode, (Node.keep_eq_some_iff m _ v).mpr ⟨hm, hdepth⟩]
  rcases v with - | - | ⟨n | x⟩ | s | - | -
  · rfl
  · rfl
  · simp only [ofValue?]
    split_ifs <;> rfl
  · rfl
  · rfl
  · rfl
  · rfl

end Quantity

/-! ### Drafts that are alike -/

namespace OrderDraft

variable {I S : Quantity → Quantity → Prop} {d d' : OrderDraft} {f : RecordField OrderDraft}

/-- The same fields have been read, with instants related by `I` and spans related by `S`. -/
structure Alike (I S : Quantity → Quantity → Prop) (d d' : OrderDraft) : Prop where
  start : Option.Rel I d.start d'.start
  stop : Option.Rel I d.stop d'.stop
  step : Option.Rel S d.step d'.step
  span : Option.Rel S d.span d'.span

/-- The relation that is meant for a field. -/
def fieldRel (I S : Quantity → Quantity → Prop) (f : RecordField OrderDraft) :
    Quantity → Quantity → Prop :=
  if f.name = "start" ∨ f.name = "end" then I else S

theorem isSome_eq_of_rel {r : Quantity → Quantity → Prop} {x y : Option Quantity}
    (h : Option.Rel r x y) : x.isSome = y.isSome := by
  cases h <;> rfl

/-- The fields of an order whose span has a name. -/
def fields (name : String) : List (RecordField OrderDraft) :=
  [startField, stopField, stepField, spanField name]

/-- Each field reads a quantity and puts it into its place. -/
theorem exists_put {name : String} (hname : name ≠ "start" ∧ name ≠ "end") (hf : f ∈ fields name) :
    ∃ put : Quantity → OrderDraft → OrderDraft,
      (∀ n d, f.read n d = Quantity.ofNode n >>= fun q => .ok (put q d)) ∧
      ∀ I S d d', Alike I S d d' → f.isFilled d = f.isFilled d' ∧
        ∀ q q', fieldRel I S f q q' → Alike I S (put q d) (put q' d') := by
  simp only [fields, List.mem_cons, List.not_mem_nil, or_false] at hf
  rcases hf with rfl | rfl | rfl | rfl
  · exact ⟨fun q d => { d with start := some q }, fun _ _ => rfl, fun I S d d' h =>
      ⟨isSome_eq_of_rel h.start, fun q q' hq => { h with start := .some hq }⟩⟩
  · exact ⟨fun q d => { d with stop := some q }, fun _ _ => rfl, fun I S d d' h =>
      ⟨isSome_eq_of_rel h.stop, fun q q' hq => { h with stop := .some hq }⟩⟩
  · exact ⟨fun q d => { d with step := some q }, fun _ _ => rfl, fun I S d d' h =>
      ⟨isSome_eq_of_rel h.step, fun q q' hq => { h with step := .some hq }⟩⟩
  · refine ⟨fun q d => { d with span := some q }, fun _ _ => rfl, fun I S d d' h =>
      ⟨isSome_eq_of_rel h.span, fun q q' hq => { h with span := .some ?_ }⟩⟩
    simpa [fieldRel, spanField, hname] using hq

/-- Reading the same keeps drafts alike. -/
theorem keeps_alike {fewer : List (RecordField OrderDraft)} {name : String}
    (hname : name ≠ "start" ∧ name ≠ "end") (hfewer : ∀ f ∈ fewer, f ∈ fields name)
    (hI : ∀ q, I q q) (hS : ∀ q, S q q) : Shape.Keeps fewer (Alike I S) where
  isFilled f hf d d' h := by
    obtain ⟨put, -, hput⟩ := exists_put hname (hfewer f hf)
    exact (hput I S d d' h).1
  read f hf n d d' e h hread := by
    obtain ⟨put, hf, hput⟩ := exists_put hname (hfewer f hf)
    rw [hf] at hread
    obtain ⟨q, hq, he⟩ := bind_eq_ok_iff.mp hread
    obtain rfl := Except.ok.inj he
    have hrefl : fieldRel I S f q q := by
      unfold fieldRel
      split_ifs
      · exact hI q
      · exact hS q
    exact ⟨put q d', by rw [hf, hq]; rfl, (hput I S d d' h).2 q q hrefl⟩

theorem alike_refl (hI : ∀ q, I q q) (hS : ∀ q, S q q) (d : OrderDraft) : Alike I S d d := by
  have hrel : ∀ {r : Quantity → Quantity → Prop} (_ : ∀ q, r q q) (x : Option Quantity),
      Option.Rel r x x := by
    rintro r hr (_ | q)
    · exact .none
    · exact .some (hr q)
  exact ⟨hrel hI _, hrel hI _, hrel hS _, hrel hS _⟩

end OrderDraft

/-! ### Orders in documents with a gap -/

open OrderDraft Quantity

variable {α γ : Type} {shape : Shape OrderDraft α} {resolve : α → Clock → Except OrderError γ}
  {I S : Quantity → Quantity → Prop} {f : RecordField OrderDraft} {put : Node → Node} {i : Nat}
  {m n : Node} {q : Quantity} {a : α}

/-- Orders of a kind are read with the fields of orders and resolved by the instants and the spans
of their quantities alone. -/
structure IsOrderShape (shape : Shape OrderDraft α)
    (resolve : α → Clock → Except OrderError γ) : Prop where
  fields : ∃ name, (name ≠ "start" ∧ name ≠ "end") ∧ ∀ f ∈ shape.fields, f ∈ OrderDraft.fields name
  names : (shape.fields.map (·.name)).Nodup
  finish : ∀ {I S d d' a}, Alike I S d d' → shape.finish d = some a →
    ∃ a', shape.finish d' = some a' ∧ ((∀ q q', I q q' → SameInstant q q') →
      (∀ q q', S q q' → SameSpan q q') → ∀ clock, resolve a' clock = resolve a clock)

theorem RangeOrder.resolve_eq_of_sameInstant {o o' : RangeOrder}
    (hstart : SameInstant o.start o'.start) (hstop : SameInstant o.stop o'.stop) (clock : Clock) :
    o'.resolve clock = o.resolve clock := by
  rw [RangeOrder.resolve, RangeOrder.resolve, hstart, hstop]

theorem MetricOrder.isOrderShape : IsOrderShape MetricOrder.shape MetricOrder.resolve where
  fields := ⟨"max_chunk", by decide, fun _ hf => hf⟩
  names := by decide
  finish {I S d d' a} h hfinish := by
    obtain ⟨_, _, _, _⟩ := d
    obtain ⟨_, _, _, _⟩ := d'
    obtain ⟨⟨hstart⟩ | -, ⟨hstop⟩ | -, ⟨hstep⟩ | -, ⟨hspan⟩ | -⟩ := h <;> cases hfinish
    refine ⟨_, rfl, fun hI hS clock => ?_⟩
    have hrange := @RangeOrder.resolve_eq_of_sameInstant ⟨_, _⟩ ⟨_, _⟩ (hI _ _ hstart)
      (hI _ _ hstop) clock
    rw [resolve, resolve, hrange, hS _ _ hstep, hS _ _ hspan]

theorem LogOrder.isOrderShape : IsOrderShape LogOrder.shape LogOrder.resolve where
  fields := ⟨"chunk", by decide, fun _ => LogOrder.mem_fields_of_mem_shape⟩
  names := by decide
  finish {I S d d' a} h hfinish := by
    obtain ⟨_, _, _, _⟩ := d
    obtain ⟨_, _, _, _⟩ := d'
    obtain ⟨⟨hstart⟩ | -, ⟨hstop⟩ | -, -, ⟨hspan⟩ | -⟩ := h <;> cases hfinish
    refine ⟨_, rfl, fun hI hS clock => ?_⟩
    have hrange := @RangeOrder.resolve_eq_of_sameInstant ⟨_, _⟩ ⟨_, _⟩ (hI _ _ hstart)
      (hI _ _ hstop) clock
    rw [resolve, resolve, hrange, hS _ _ hspan]

namespace IsOrderShape

/-- **Anything that comes to the same may be in the gap.** -/
theorem exists_of_refill (h : IsOrderShape shape resolve) (hf : shape.fields[i]? = some f)
    (hput : Node.Gap f.name i put) (hread : shape.read (put n) = .ok a) (hI : ∀ q, I q q)
    (hS : ∀ q, S q q) (hm : Quantity.ofNode m = .ok q)
    (hrel : ∀ p, Quantity.ofNode n = .ok p → fieldRel I S f p q) :
    ∃ a', shape.read (put m) = .ok a' ∧ ((∀ q q', I q q' → SameInstant q q') →
      (∀ q q', S q q' → SameSpan q q') → ∀ clock, resolve a' clock = resolve a clock) := by
  obtain ⟨name, hname, hfields⟩ := h.fields
  obtain ⟨set, hset, hrel'⟩ := exists_put hname (hfields f (List.mem_of_getElem? hf))
  obtain ⟨d, go, hgo, hkept⟩ := Shape.exists_read_put h.names hf hput hread
  -- up to the gap the drafts are one and the same; from there on they are alike
  rw [hgo, hset, bind_assoc] at hread
  obtain ⟨p, hp, hread⟩ := bind_eq_ok_iff.mp hread
  have halike := (hrel' I S d d (alike_refl hI hS d)).2 p q (hrel p hp)
  obtain ⟨e, e', he, hfinish, hgo'⟩ :=
    hkept _ (keeps_alike hname hfields hI hS) _ _ a halike hread
  obtain ⟨a', hfinish', hresolve⟩ := h.finish he hfinish
  refine ⟨a', ?_, hresolve⟩
  rw [hgo, hset, hm]
  exact hgo' a' hfinish'

/-- **What is no quantity is refused in the gap.** -/
theorem read_eq_mismatch (h : IsOrderShape shape resolve) (hf : shape.fields[i]? = some f)
    (hput : Node.Gap f.name i put) (hread : shape.read (put n) = .ok a)
    (hm : Quantity.ofNode m = .error .mismatch) : shape.read (put m) = .error .mismatch := by
  obtain ⟨name, hname, hfields⟩ := h.fields
  obtain ⟨set, hset, -⟩ := exists_put hname (hfields f (List.mem_of_getElem? hf))
  obtain ⟨d, go, hgo, -⟩ := Shape.exists_read_put h.names hf hput hread
  rw [hgo, hset, hm]
  rfl

end IsOrderShape

end QueryPrep
