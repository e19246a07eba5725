import Mathlib.Data.List.SplitBy
import SymbolIndex.Proofs.Event.Lines

/-!
# `Proofs.Event.Splitting` — a stream as a whole

A reader takes lines off the front of its bytes, one call after another, and stops in two ways: where
the bytes end, and after a line that is no text. Here the same stream is taken apart at once. Its bytes
are cut after each newline, the pieces are numbered, they lose their ends and are read as texts, what
comes after the first that is no text is left out, and so are those of blank characters alone (`itemsOf`).
Both give the same items, since the line that the reader takes is the first piece without its end
(`pieces_of_nextLine?`), and a text is trimmed to nothing if every character of it is blank.

Calls are counted (`EventReader.call`): the `k`-th of them gives the `k`-th item. A reader that has given
nothing, or a line that is no text, stays as it is (`Stopped`), so that it gives nothing ever after.

## Contents
- `pieces`, `withoutEnd`, `numberedTexts`, `uptoBroken`, `itemsOf`: a stream taken apart at once.
- `pieces_of_nextLine?`, `EventReader.items_eq`: the reader gives those items.
- `EventReader.after`, `EventReader.call`; `call_eq`: call after call.
- `Stopped`, `EndsStream`; `stopped_of_endsStream`, `call_of_endsStream`.
- `EventReader.stream_is_split_into_lines`.
-/

namespace SymbolIndex

/-! ## A stream taken apart at once -/

/-- Bytes cut after each newline. What is left after the last of them is a piece unless it is empty. -/
def pieces (bytes : List UInt8) : List (List UInt8) :=
  bytes.splitBy fun b _ => b != newline

/-- A piece without its end: the newline, and a carriage return right before it. -/
def withoutEnd (piece : List UInt8) : List UInt8 :=
  if [carriageReturn, newline] <:+ piece then piece.dropLast.dropLast
  else if [newline] <:+ piece then piece.dropLast
  else piece

/-- The texts of the pieces, numbered from the first. A piece that is not UTF-8 has no text. -/
def numberedTexts (first : Nat) (bytes : List UInt8) : List (Option String × Nat) :=
  ((pieces bytes).map fun piece => decodeUtf8? (withoutEnd piece)).zipIdx first

/-- Numbered texts up to the first that is none, and this one. -/
def uptoBroken (texts : List (Option String × Nat)) : List (Option String × Nat) :=
  texts.take (texts.findIdx (·.1.isNone) + 1)

/-- The item of a numbered text. There is none for a text of which every character is blank. -/
def itemOf? : Option String × Nat → Option StreamItem
  | (none, number) => some ⟨number, .error .notUtf8⟩
  | (some text, number) =>
    if text.toList.all Text.isBlank then none
    else some ⟨number, (Event.ofText text).mapError .malformedEvent⟩

/-- The items of bytes whose first line has the number `first`. -/
def itemsOf (first : Nat) (bytes : List UInt8) : List StreamItem :=
  (uptoBroken (numberedTexts first bytes)).filterMap itemOf?

/-! ## Pieces and lines -/

section Pieces

variable {line bytes rest : List UInt8}

/-- Nothing is cut before the first newline, nor right before the byte after it. -/
theorem pieces_whole (h : newline ∉ line) (last : UInt8) : pieces (line ++ [last]) = [line ++ [last]] := by
  apply List.splitBy_of_isChain (List.append_ne_nil_of_right_ne_nil line (List.cons_ne_nil last []))
  induction line with
  | nil => exact List.isChain_singleton last
  | cons b line ih =>
    rw [List.mem_cons, not_or] at h
    rw [List.cons_append, List.isChain_cons]
    exact ⟨fun _ _ => bne_iff_ne.mpr (Ne.symm h.1), ih h.2⟩

/-- Bytes without a newline are one piece. -/
theorem pieces_last (h : newline ∉ line) (some : line ≠ []) : pieces line = [line] := by
  have front : newline ∉ line.dropLast := fun inside => h (List.dropLast_subset line inside)
  have whole := pieces_whole front (line.getLast some)
  rwa [List.dropLast_concat_getLast some] at whole

/-- A piece is cut off after the first newline. -/
theorem pieces_ended (h : newline ∉ line) (rest : List UInt8) :
    pieces (line ++ newline :: rest) = (line ++ [newline]) :: pieces rest := by
  -- the last byte of the front is a newline, so that the cut falls between the two
  have cut : pieces ((line ++ [newline]) ++ rest) = pieces (line ++ [newline]) ++ pieces rest := by
    apply List.splitBy_append
    intro b last c _
    rw [List.getLast?_concat, Option.mem_some_iff] at last
    subst last
    rfl
  rw [List.append_assoc, List.singleton_append, pieces_whole h newline] at cut
  exact cut

/-- The last piece has no end to lose. -/
theorem withoutEnd_last (h : newline ∉ line) : withoutEnd line = line := by
  have unended (lineEnd : List UInt8) (ends : newline ∈ lineEnd) : ¬ lineEnd <:+ line :=
    fun suffix => h (suffix.subset ends)
  unfold withoutEnd
  rw [if_neg (unended _ (by decide)), if_neg (unended _ (by decide))]

/-- Any other loses its newline, and then a carriage return as a line of the reader does. -/
theorem withoutEnd_ended (line : List UInt8) : withoutEnd (line ++ [newline]) = dropCarriageReturn line := by
  have ended : [newline] <:+ line ++ [newline] := List.suffix_append line [newline]
  have returned : [carriageReturn, newline] <:+ line ++ [newline] ↔ line.getLast? = some carriageReturn := by
    rw [List.getLast?_eq_some_iff]
    constructor
    · rintro ⟨front, same⟩
      refine ⟨front, ?_⟩
      have split : [carriageReturn, newline] = [carriageReturn] ++ [newline] := rfl
      rw [split, ← List.append_assoc] at same
      exact (List.append_cancel_right same).symm
    · rintro ⟨front, rfl⟩
      exact ⟨front, (List.append_assoc front [carriageReturn] [newline]).symm⟩
  unfold withoutEnd dropCarriageReturn
  rw [List.dropLast_concat, if_pos ended]
  simp only [returned]

/-- **The line that is read first** is the first piece without its end, and the other pieces are those of
the bytes after it. -/
theorem pieces_of_nextLine? (cut : nextLine? bytes = some (line, rest)) :
    ∃ piece, withoutEnd piece = line ∧ pieces bytes = piece :: pieces rest := by
  by_cases ends : newline ∈ bytes
  · obtain ⟨front, others, rfl, first⟩ := List.eq_append_cons_of_mem ends
    rw [nextLine?_ended first] at cut
    cases cut
    exact ⟨front ++ [newline], withoutEnd_ended front, pieces_ended first rest⟩
  · have some : bytes ≠ [] := by
      rintro rfl
      cases cut
    rw [nextLine?_last ends some] at cut
    cases cut
    exact ⟨line, withoutEnd_last ends, pieces_last ends some⟩

theorem eq_nil_of_nextLine? (cut : nextLine? bytes = none) : bytes = [] := by
  unfold nextLine? at cut
  split at cut
  · assumption
  · split at cut <;> cases cut

end Pieces

/-! ## Items of pieces -/

section Items

variable {first : Nat} {line bytes rest : List UInt8} {text : String}

/-- The next line is the text of the first piece, and the numbers go on with the rest. -/
theorem numberedTexts_of_nextLine? (cut : nextLine? bytes = some (line, rest)) :
    numberedTexts first bytes = (decodeUtf8? line, first) :: numberedTexts (first + 1) rest := by
  obtain ⟨piece, rfl, split⟩ := pieces_of_nextLine? cut
  unfold numberedTexts
  rw [split, List.map_cons, List.zipIdx_cons]

theorem itemsOf_nil (first : Nat) : itemsOf first [] = [] := by
  unfold itemsOf numberedTexts pieces
  rw [List.splitBy_nil]
  rfl

/-- Nothing comes after a piece that is no text. -/
theorem itemsOf_notUtf8 (cut : nextLine? bytes = some (line, rest)) (bad : decodeUtf8? line = none) :
    itemsOf first bytes = [⟨first, .error .notUtf8⟩] := by
  unfold itemsOf uptoBroken
  rw [numberedTexts_of_nextLine? cut, bad, List.findIdx_cons]
  rfl

theorem uptoBroken_text (text : String) (number : Nat) (texts : List (Option String × Nat)) :
    uptoBroken ((some text, number) :: texts) = (some text, number) :: uptoBroken texts := by
  unfold uptoBroken
  rw [List.findIdx_cons]
  rfl

/-- A piece that is a text gives the items of a line. -/
theorem itemsOf_line (cut : nextLine? bytes = some (line, rest)) (good : decodeUtf8? line = some text) :
    itemsOf first bytes = EventReader.lineItems first text ++ itemsOf (first + 1) rest := by
  unfold itemsOf EventReader.lineItems
  rw [numberedTexts_of_nextLine? cut, good, uptoBroken_text]
  -- the reader trims a text where its characters are looked at here
  have trimmed : Text.trim text.toList = [] ↔ text.toList.all Text.isBlank = true := by
    rw [Text.trim_eq_nil_iff, List.all_eq_true]
  by_cases blank : text.toList.all Text.isBlank = true
  · have passed : itemOf? (some text, first) = none := if_pos blank
    rw [List.filterMap_cons_none passed, if_pos (trimmed.mpr blank), List.nil_append]
  · have given : itemOf? (some text, first) = some ⟨first, EventReader.decodeLine text⟩ := if_neg blank
    rw [List.filterMap_cons_some given, if_neg (mt trimmed.mp blank), List.singleton_append]

/-- A later item stands in a later line. -/
theorem pairwise_itemsOf (first : Nat) (bytes : List UInt8) :
    (itemsOf first bytes).Pairwise fun a b => a.line < b.line := by
  have line_itemOf? {text : Option String × Nat} {item : StreamItem} (h : itemOf? text = some item) :
      item.line = text.2 := by
    obtain ⟨text, number⟩ := text
    cases text with
    | none =>
      cases h
      rfl
    | some text =>
      dsimp only [itemOf?] at h
      split at h
      · cases h
      · cases h
        rfl
  have numbers : (numberedTexts first bytes).Pairwise fun a b => a.2 < b.2 := by
    unfold numberedTexts
    rw [← List.pairwise_map (f := Prod.snd), List.zipIdx_map_snd]
    exact List.pairwise_lt_range'
  have kept : (uptoBroken (numberedTexts first bytes)).Pairwise fun a b => a.2 < b.2 :=
    numbers.sublist (List.take_sublist _ _)
  rw [itemsOf, List.pairwise_filterMap]
  refine kept.imp fun less item given item' given' => ?_
  rw [line_itemOf? given, line_itemOf? given']
  exact less

end Items

namespace EventReader

variable {r r' : EventReader}

/-- **What a reader gives** is what its bytes hold when they are taken apart at once. -/
theorem items_eq (bytes : List UInt8) (number : Nat) :
    items ⟨bytes, number, false⟩ = itemsOf (number + 1) bytes := by
  induction bytes using lines_induction generalizing number with
  | none bytes cut => rw [items_end cut, eq_nil_of_nextLine? cut, itemsOf_nil]
  | line bytes line rest cut ih =>
    cases text : decodeUtf8? line with
    | none => rw [items_notUtf8 rfl cut text, itemsOf_notUtf8 cut text]
    | some text' => rw [items_line rfl cut text, itemsOf_line cut text, ih (number + 1)]

/-! ## Call after call -/

/-- The reader after so many calls. -/
def after (r : EventReader) : Nat → EventReader
  | 0 => r
  | calls + 1 => (r.next.2).after calls

/-- What is given by the call that comes after `calls` others. -/
def call (r : EventReader) (calls : Nat) : Option StreamItem :=
  (r.after calls).next.1

/-- Calls can be made in two goes. -/
theorem after_add (r : EventReader) (calls more : Nat) :
    r.after (calls + more) = (r.after calls).after more := by
  induction calls generalizing r with
  | zero => rw [Nat.zero_add]; rfl
  | succ calls ih =>
    rw [Nat.succ_add]
    exact ih r.next.2

/-- A reader that gives nothing and stays as it is. -/
def Stopped (r : EventReader) : Prop :=
  r.next = (none, r)

/-- A reader that has stopped stays as it is, however often it is called. -/
theorem after_of_stopped (h : Stopped r) (calls : Nat) : r.after calls = r := by
  induction calls with
  | zero => rfl
  | succ calls ih =>
    show (r.next.2).after calls = r
    rw [h]
    exact ih

/-- What ends a stream: nothing, or a line that is no text. -/
def EndsStream : Option StreamItem → Prop
  | none => True
  | some item => item.content = .error .notUtf8

/-- The error of a line that is a text is another one. -/
theorem decodeLine_ne_notUtf8 (text : String) : decodeLine text ≠ .error .notUtf8 := by
  intro same
  unfold decodeLine at same
  cases read : Event.ofText text with
  | ok e =>
    rw [read] at same
    cases same
  | error fault =>
    rw [read] at same
    cases same

/-- A reader has nothing to give after the item that ends the stream. -/
theorem stopped_of_endsStream (h : EndsStream r.next.1) : Stopped r.next.2 := by
  obtain ⟨bytes, number, finished⟩ := r
  -- one call may go through many lines: it passes over the blank ones
  induction bytes using lines_induction generalizing number finished with
  | none bytes cut =>
    rw [next_end cut]
    exact next_end cut
  | line bytes line rest cut ih =>
    cases finished with
    | true =>
      rw [next_finished rfl]
      exact next_finished rfl
    | false =>
      rw [next_line rfl cut] at h ⊢
      cases text : decodeUtf8? line with
      | none => exact next_finished rfl
      | some text' =>
        rw [text] at h
        dsimp only at h ⊢
        split at h
        · rename_i blank
          rw [if_pos blank]
          exact ih _ _ h
        · exact absurd h (decodeLine_ne_notUtf8 text')

/-- **Once the stream has ended, every call gives nothing.** -/
theorem call_of_endsStream {calls later : Nat} (ends : EndsStream (r.call calls)) (h : calls < later) :
    r.call later = none := by
  -- the reader has stopped after the call itself, whatever it gave
  obtain ⟨more, rfl⟩ : ∃ more, later = calls + (1 + more) := ⟨later - calls - 1, by omega⟩
  have stopped : Stopped (r.after (calls + 1)) := by
    rw [after_add]
    exact stopped_of_endsStream ends
  have same : r.after (calls + (1 + more)) = r.after (calls + 1) := by
    rw [← Nat.add_assoc, after_add, after_of_stopped stopped]
  unfold call
  rw [same, stopped]

/-- A call takes the first item. -/
theorem items_next (r : EventReader) : r.next.1 = r.items.head? ∧ r.next.2.items = r.items.tail := by
  cases next : r.next with
  | mk item after =>
    cases item with
    | none =>
      have stopped : Stopped r.next.2 := stopped_of_endsStream (by rw [next]; trivial)
      rw [next] at stopped
      rw [items_of_next_eq_none next, items_of_next_eq_none stopped]
      exact ⟨rfl, rfl⟩
    | some item =>
      rw [items_of_next_eq_some next]
      exact ⟨rfl, rfl⟩

/-- Each call takes one item off the front. -/
theorem items_after (r : EventReader) (calls : Nat) : (r.after calls).items = r.items.drop calls := by
  induction calls generalizing r with
  | zero => rfl
  | succ calls ih =>
    show ((r.next.2).after calls).items = _
    rw [ih, (items_next r).2, List.drop_tail]

/-- **Each call gives the next item**, and nothing when there are no more. -/
theorem call_eq (r : EventReader) (calls : Nat) : r.call calls = r.items[calls]? := by
  unfold call
  rw [(items_next _).1, items_after, List.head?_drop]

/-! ## Streams -/

/-- **A stream is split into its lines.** A reader gives the items of the numbered lines, one a call, and
their numbers grow. Once a call has given nothing, or a line that is no text, no call gives anything. -/
theorem stream_is_split_into_lines (bytes : List UInt8) :
    (ofBytes bytes).items = itemsOf 1 bytes ∧
    (∀ calls, (ofBytes bytes).call calls = (itemsOf 1 bytes)[calls]?) ∧
    (ofBytes bytes).items.Pairwise (fun a b => a.line < b.line) ∧
    ∀ calls later, calls < later → EndsStream ((ofBytes bytes).call calls) →
      (ofBytes bytes).call later = none := by
  have items : (ofBytes bytes).items = itemsOf 1 bytes := items_eq bytes 0
  refine ⟨items, ?_, ?_, ?_⟩
  · intro calls
    rw [call_eq, items]
  · rw [items]
    exact pairwise_itemsOf 1 bytes
  · intro calls later less ends
    exact call_of_endsStream ends less

/-- A blank line is counted, the line after it is no text, and the last line is not read. -/
theorem broken_line_ends_the_stream :
    0 < 1 ∧ EndsStream ((ofBytes [carriageReturn, newline, 0xFF, newline, 0x78]).call 0) ∧
    (ofBytes [carriageReturn, newline, 0xFF, newline, 0x78]).items = [⟨2, .error .notUtf8⟩] ∧
    (ofBytes [carriageReturn, newline, 0xFF, newline, 0x78]).call 1 = none := by
  obtain ⟨items, calls, -, ended⟩ :=
    stream_is_split_into_lines [carriageReturn, newline, 0xFF, newline, 0x78]
  have parts : itemsOf 1 [carriageReturn, newline, 0xFF, newline, 0x78] = [⟨2, .error .notUtf8⟩] := rfl
  have first : EndsStream ((ofBytes [carriageReturn, newline, 0xFF, newline, 0x78]).call 0) := by
    rw [calls 0, parts]
    rfl
  exact ⟨Nat.zero_lt_one, first, items.trans parts, ended 0 1 Nat.zero_lt_one first⟩

end EventReader

end SymbolIndex
