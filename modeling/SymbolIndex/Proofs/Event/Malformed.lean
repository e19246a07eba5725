import SymbolIndex.Proofs.Event.Lines
import SymbolIndex.Proofs.Json.Reads

/-!
# `Proofs.Event.Malformed` — lines that hold no event

A line that is no event gives nothing if it is blank, and one item with a fault if it is not. What decides
is the line up to its newline. If it ends in a carriage return the reader takes that off first, but this
makes no event of it: a text that is an event still is one, and the same, with white space after it.

## Contents
- `read_trailing`, `ofText_append`: white space after an event.
- `withoutReturn_cases`, `isBlank_withoutReturn`: lines with a carriage return.
- `lineItems_of_blank`, `lineItems_of_malformed`: what such a line gives.
-/

namespace SymbolIndex

open Json

variable {α : Type} {tail : List Char}

/-! ## White space after an event -/

/-- A value of the wrong type is a fault wherever it ends. -/
theorem Json.Form.otherType_trailing : Trailing tail (otherType : Reader α) := fun text a ok =>
  absurd ok (otherType_ne_ok text a)

/-- A reader that looks at one character first sees the same one. -/
theorem Json.Form.guarded_trailing {test : Char → Bool} {reader : Reader α} (h : Trailing tail reader) :
    Trailing tail (guarded test reader) := fun text =>
  Follows.afterSpace text fun c rest => .ite (h (c :: rest)) (otherType_trailing (c :: rest))

namespace Event

/-- The kind of an event ends as any string does. -/
theorem readKind_trailing : Trailing tail readKind := by
  refine Form.guarded_trailing fun text => ?_
  cases text with
  | nil => exact .error _
  | cons c text =>
    refine (string_trailing text).bind fun (w, rest) => ?_
    dsimp only [leaving]
    cases (Vocabulary.ofWord? w : Option EventKind) with
    | none => exact .error _
    | some kind => exact .ok (kind, rest)

/-- A member of an event is its tag or a field, and either ends where its value ends. -/
theorem readMember_trailing (ends : EndsNumeral tail) (seen : Option EventKind × List (String × Value))
    (name : String) : Trailing tail (readMember seen name) := by
  intro text
  refine .ite ?tag ?field
  case tag =>
    cases seen.1 with
    | some kind => exact .error _
    | none => exact (colon_trailing text).bind fun rest =>
        (readKind_trailing rest).bind fun read => .ok ((some read.1, seen.2), read.2)
  case field =>
    exact (colon_trailing text).bind fun rest =>
      (value_trailing ends _ rest).bind fun read => .ok ((seen.1, seen.2 ++ [(name, read.1)]), read.2)

/-- An element of an event that is written as an array is its kind or a field. -/
theorem readElement_trailing (ends : EndsNumeral tail) (seen : Option EventKind × List Value) :
    Trailing tail (readElement seen) := by
  intro text
  unfold readElement
  cases seen.1 with
  | none => exact (readKind_trailing text).bind fun read => .ok ((some read.1, []), read.2)
  | some kind => exact (value_trailing ends _ text).bind fun read => .ok ((some kind, seen.2 ++ [read.1]), read.2)

/-- An event ends where its object or array ends, whatever follows. -/
theorem read_trailing (ends : EndsNumeral tail) : Trailing tail read := by
  intro text
  have tagged (tag : Option EventKind) (content : Value) (rest : List Char) :
      Follows (leaving tail) (do let event ← ofTagged tag content; .ok (event, rest))
        (do let event ← ofTagged tag content; .ok (event, rest ++ tail)) := by
    cases ofTagged tag content with
    | error fault => exact .error fault
    | ok event => exact .ok (event, rest)
  refine Follows.afterSpace text fun c rest => .ite ?object (.ite ?array (Form.otherType_trailing _))
  case object =>
    exact (members_trailing string_trailing (readMember_trailing ends) (none, []) rest).bind fun read =>
      tagged read.1.1 (.object read.1.2) read.2
  case array =>
    exact (elements_trailing (readElement_trailing ends) (none, []) rest).bind fun read =>
      tagged read.1.1 (.array read.1.2) read.2

/-- **An event is one with white space after it.** -/
theorem ofText_append {text : String} {e : Event} (h : ofText text = .ok e) {tail : String}
    (blank : Spaces tail.toList) : ofText (text ++ tail) = .ok e := by
  unfold ofText
  rw [String.toList_append]
  exact whole_trailing (read_trailing blank.endsNumeral) blank h

end Event

/-! ## Lines -/

variable {s : String}

/-- A line that the reader passes over. -/
def IsBlank (s : String) : Prop :=
  Text.trim s.toList = []

instance (s : String) : Decidable (IsBlank s) :=
  inferInstanceAs (Decidable (Text.trim s.toList = []))

/-- A line loses one carriage return at its end, or nothing. -/
theorem withoutReturn_cases (s : String) : withoutReturn s = s ∨ s = withoutReturn s ++ "\r" := by
  unfold withoutReturn
  split
  · rename_i last
    refine Or.inr (String.toList_inj.mp ?_)
    rw [String.toList_append, String.toList_ofList]
    obtain ⟨cs, text⟩ := List.getLast?_eq_some_iff.mp last
    rw [text, List.dropLast_concat]
    rfl
  · exact Or.inl rfl

/-- A carriage return is blank, so a line is blank with it or without it. -/
theorem isBlank_withoutReturn (s : String) : IsBlank (withoutReturn s) ↔ IsBlank s := by
  rcases withoutReturn_cases s with same | split
  · rw [same]
  · have more : IsBlank (withoutReturn s ++ "\r") ↔ IsBlank (withoutReturn s) := by
      unfold IsBlank
      rw [Text.trim_eq_nil_iff, Text.trim_eq_nil_iff, String.toList_append]
      have last : ∀ c ∈ "\r".toList, Text.isBlank c = true :=
        List.all_eq_true.mp (by decide : "\r".toList.all Text.isBlank = true)
      rw [List.forall_mem_append]
      exact and_iff_left last
    rw [← more, ← split]

/-- A carriage return after an event is white space after it. -/
theorem Event.ofText_withoutReturn {e : Event} (h : ofText (withoutReturn s) = .ok e) :
    ofText s = .ok e := by
  rcases withoutReturn_cases s with same | split
  · rwa [same] at h
  · rw [split]
    exact ofText_append h (List.all_eq_true.mp (by decide : "\r".toList.all isSpace = true))

namespace EventReader

/-- A blank line gives no item. -/
theorem lineItems_of_blank (h : IsBlank s) (number : Nat) : lineItems number (withoutReturn s) = [] :=
  if_pos ((isBlank_withoutReturn s).mpr h)

/-- Any other line that holds no event gives an error, since no carriage return could have made one of it.
-/
theorem lineItems_of_malformed (full : ¬ IsBlank s) (bad : ∀ e, Event.ofText s ≠ .ok e) (number : Nat) :
    ∃ err, lineItems number (withoutReturn s) = [⟨number, .error err⟩] := by
  have written : ¬ Text.trim (withoutReturn s).toList = [] := fun blank =>
    full ((isBlank_withoutReturn s).mp blank)
  unfold lineItems decodeLine
  rw [if_neg written]
  cases read : Event.ofText (withoutReturn s) with
  | ok e => exact absurd (Event.ofText_withoutReturn read) (bad e)
  | error fault => exact ⟨_, rfl⟩

end EventReader

end SymbolIndex
