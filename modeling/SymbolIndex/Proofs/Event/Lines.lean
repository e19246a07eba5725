import SymbolIndex.Event.Stream
import SymbolIndex.Proofs.Event.RoundTrip
import SymbolIndex.Proofs.Text.Bytes

/-!
# `Proofs.Event.Lines` — the lines of a stream

What a reader gives is given line by line: the items of the first line, with its number, and then those
of the lines after it (`items_line`), unless the line is no text, which ends the stream. Since the bytes of
other characters are above those of ASCII, a line without a newline character has no newline byte either,
and its bytes read back as the line.

So events that are written one a line are read back, one an item, with the numbers of their lines.

## Contents
- `decodeUtf8?_bytesOf`: the bytes of a text read back as the text.
- `IsLine`, `withoutReturn`; `dropCarriageReturn_bytesOf`: the end of a line.
- `lineItems`; `items_line`, `items_notUtf8`, `items_lines`: a stream line by line.
- `stream_round_trip`.
-/

namespace SymbolIndex

open Json

/-! ## Lines as bytes -/

/-- **The bytes of a text read back as the text.** -/
theorem decodeUtf8?_bytesOf (s : String) : decodeUtf8? (bytesOf s) = some s := by
  have same : (⟨(bytesOf s).toArray⟩ : ByteArray) = s.toByteArray := by
    rw [bytesOf_eq_data]
  unfold decodeUtf8? String.fromUTF8?
  rw [same, dif_pos s.isValidUTF8]
  rfl

/-- A text that is one line. -/
def IsLine (s : String) : Prop :=
  '\n' ∉ s.toList

instance (s : String) : Decidable (IsLine s) :=
  inferInstanceAs (Decidable ('\n' ∉ s.toList))

/-- A line has no newline among its bytes, as the bytes of other characters are not that one. -/
theorem IsLine.newline_notMem {s : String} (h : IsLine s) : newline ∉ bytesOf s := by
  intro hb
  obtain ⟨c, hc, same⟩ := mem_of_mem_bytesOf hb (by decide)
  have feed : c = '\n' := Char.toNat_inj.mp same
  exact h (feed ▸ hc)

/-- A line without the carriage return that it may end in. -/
def withoutReturn (s : String) : String :=
  if s.toList.getLast? = some '\r' then String.ofList s.toList.dropLast else s

/-- A carriage return is taken off the bytes of a line as it is off the line. -/
theorem dropCarriageReturn_bytesOf (s : String) :
    dropCarriageReturn (bytesOf s) = bytesOf (withoutReturn s) := by
  rcases List.eq_nil_or_concat s.toList with empty | ⟨cs, c, text⟩
  · have none : bytesOf s = [] := by rw [bytesOf_eq, empty, List.flatMap_nil]
    unfold withoutReturn
    rw [empty, if_neg nofun, none]
    rfl
  · rw [List.concat_eq_append] at text
    have bytes : bytesOf s = cs.flatMap String.utf8EncodeChar ++ String.utf8EncodeChar c := by
      rw [bytesOf_eq, text, List.flatMap_append, List.flatMap_singleton]
    have some : String.utf8EncodeChar c ≠ [] := String.utf8EncodeChar_ne_nil
    have last : (cs.flatMap String.utf8EncodeChar ++ String.utf8EncodeChar c).getLast? =
        (String.utf8EncodeChar c).getLast? := by
      rw [List.getLast?_append, List.getLast?_eq_some_getLast some, Option.some_or]
    unfold withoutReturn dropCarriageReturn
    rw [text, List.getLast?_concat, List.dropLast_concat, bytes, last]
    by_cases h : c = '\r'
    · subst h
      rw [if_pos rfl, if_pos (by decide), bytesOf_eq, String.toList_ofList]
      exact List.dropLast_concat
    · rw [if_neg, if_neg (by simpa using h), bytesOf_eq, text, List.flatMap_append,
        List.flatMap_singleton]
      -- a last byte that is a carriage return would be the whole last character
      intro ends
      obtain ⟨_, same⟩ := encode_of_ascii (List.mem_of_getLast? ends) (by decide)
      exact h (Char.toNat_inj.mp same)

/-! ## A stream line by line -/

section Lines

variable {line rest : List UInt8}

theorem bne_newline (h : newline ∉ line) : ∀ b ∈ line, (b != newline) = true := fun _ hb =>
  bne_iff_ne.mpr fun same => h (same ▸ hb)

/-- The next line ends at the first newline. -/
theorem nextLine?_ended (h : newline ∉ line) (rest : List UInt8) :
    nextLine? (line ++ newline :: rest) = some (dropCarriageReturn line, rest) := by
  have inside := bne_newline h
  unfold nextLine?
  rw [if_neg (by simp), List.takeWhile_append_of_pos inside, List.dropWhile_append_of_pos inside,
    List.takeWhile_cons_of_neg (by simp), List.dropWhile_cons_of_neg (by simp), List.append_nil]

/-- Without a newline it is all that is left. -/
theorem nextLine?_last (h : newline ∉ line) (some : line ≠ []) : nextLine? line = .some (line, []) := by
  have inside := bne_newline h
  unfold nextLine?
  rw [if_neg some, List.takeWhile_eq_self_iff.mpr inside, List.dropWhile_eq_nil_iff.mpr inside]

end Lines

namespace EventReader

variable {r : EventReader} {line rest : List UInt8}

/-- What a line that is a text gives: its event or its fault, unless it is blank. -/
def lineItems (number : Nat) (text : String) : List StreamItem :=
  if Text.trim text.toList = [] then [] else [⟨number, decodeLine text⟩]

/-- A reader that gives nothing has no items. -/
theorem items_of_next_eq_none {r' : EventReader} (h : r.next = (none, r')) : r.items = [] := by
  rw [items]
  split
  · rfl
  · rename_i next
    rw [h] at next
    cases next

/-- What it gives is the first of its items. -/
theorem items_of_next_eq_some {item : StreamItem} {r' : EventReader} (h : r.next = (some item, r')) :
    r.items = item :: r'.items := by
  rw [items]
  split
  · rename_i next
    rw [h] at next
    cases next
  · rename_i next
    rw [h] at next
    cases next
    rfl

/-- A reader that has come to the end gives nothing more. -/
theorem items_end (h : nextLine? r.rest = none) : r.items = [] :=
  items_of_next_eq_none (next_end h)

theorem items_finished (h : r.finished = true) : r.items = [] :=
  items_of_next_eq_none (next_finished h)

/-- What is given first decides what is given. -/
theorem items_of_next_eq {r' : EventReader} (h : r.next = r'.next) : r.items = r'.items := by
  cases next : r'.next with
  | mk item after =>
    cases item with
    | none => rw [items_of_next_eq_none (h.trans next), items_of_next_eq_none next]
    | some item => rw [items_of_next_eq_some (h.trans next), items_of_next_eq_some next]

/-- **The items of a stream** are those of its first line and then those of the lines after it. -/
theorem items_line {text : String} (more : r.finished = false) (cut : nextLine? r.rest = some (line, rest))
    (good : decodeUtf8? line = some text) :
    r.items = lineItems (r.line + 1) text ++ items ⟨rest, r.line + 1, false⟩ := by
  have next := next_line more cut
  rw [good] at next
  dsimp only at next
  unfold lineItems
  split
  · rename_i blank
    rw [if_pos blank] at next
    exact items_of_next_eq next
  · rename_i full
    rw [if_neg full] at next
    exact items_of_next_eq_some next

/-- A line that is no text is the last that gives an item. -/
theorem items_notUtf8 (more : r.finished = false) (cut : nextLine? r.rest = some (line, rest))
    (bad : decodeUtf8? line = none) : r.items = [⟨r.line + 1, .error .notUtf8⟩] := by
  have next := next_line more cut
  rw [bad] at next
  rw [items_of_next_eq_some next, items_finished rfl]

/-- The items of lines do not depend on what the lines before them were, but for the numbers. -/
theorem contents_items (bytes : List UInt8) (number other : Nat) :
    (items ⟨bytes, number, false⟩).map StreamItem.content =
      (items ⟨bytes, other, false⟩).map StreamItem.content := by
  induction bytes using lines_induction generalizing number other with
  | none bytes cut => rw [items_end cut, items_end cut]
  | line bytes line rest cut ih =>
    cases text : decodeUtf8? line with
    | none => rw [items_notUtf8 rfl cut text, items_notUtf8 rfl cut text]; rfl
    | some text' =>
      have one (n m : Nat) : (lineItems n text').map StreamItem.content =
          (lineItems m text').map StreamItem.content := by
        unfold lineItems
        split <;> rfl
      have split (n : Nat) : items ⟨bytes, n, false⟩ =
          lineItems (n + 1) text' ++ items ⟨rest, n + 1, false⟩ := items_line rfl cut text
      rw [split, split, List.map_append, List.map_append, one (number + 1) (other + 1),
        ih (number + 1) (other + 1)]

/-- A line ends where its text ends, unless it has a carriage return there. -/
theorem items_ended {text : String} (h : IsLine text) (rest : List UInt8) (number : Nat) :
    items ⟨bytesOf text ++ newline :: rest, number, false⟩ =
      lineItems (number + 1) (withoutReturn text) ++ items ⟨rest, number + 1, false⟩ := by
  have cut := nextLine?_ended h.newline_notMem rest
  rw [dropCarriageReturn_bytesOf] at cut
  exact items_line rfl cut (decodeUtf8?_bytesOf _)

end EventReader

/-- The bytes of lines, each of which is ended. -/
def ended (lines : List String) : List UInt8 :=
  lines.flatMap fun line => bytesOf line ++ [newline]

/-- **A stream of lines gives the items of each**, numbered, and then those of what follows them. -/
theorem EventReader.items_lines {lines : List String} (h : ∀ line ∈ lines, IsLine line)
    (rest : List UInt8) (number : Nat) : items ⟨ended lines ++ rest, number, false⟩ =
      ((lines.zipIdx (number + 1)).flatMap fun (line, n) => lineItems n (withoutReturn line)) ++
        items ⟨rest, number + lines.length, false⟩ := by
  induction lines generalizing number with
  | nil => rfl
  | cons line lines ih =>
    rw [List.forall_mem_cons] at h
    have bytes : ended (line :: lines) ++ rest = bytesOf line ++ newline :: (ended lines ++ rest) := by
      unfold ended
      rw [List.flatMap_cons, List.append_assoc, List.append_assoc, List.singleton_append]
    have count : number + 1 + lines.length = number + (line :: lines).length := by
      rw [List.length_cons]
      omega
    rw [bytes, items_ended h.1, ih h.2, List.zipIdx_cons, List.flatMap_cons, List.append_assoc, count]

/-! ## Streams of events -/

/-- A text is trimmed to nothing if every character of it is blank. -/
theorem Text.trim_eq_nil_iff {cs : List Char} : trim cs = [] ↔ ∀ c ∈ cs, isBlank c = true := by
  unfold trim
  rw [List.reverse_eq_nil_iff, List.dropWhile_eq_nil_iff]
  simp only [List.mem_reverse]
  constructor
  · intro after c hc
    rw [← List.takeWhile_append_dropWhile (p := isBlank) (l := cs), List.mem_append] at hc
    exact hc.elim (fun front => List.mem_takeWhile_imp front) (after c)
  · exact fun all c hc => all c ((List.dropWhile_sublist _).mem hc)

namespace Event

variable {e : Event}

/-- The text of an event has no controls in it, so that it is one line and holds no carriage return. -/
theorem visible_toText (h : e.Storable) : ∀ c ∈ e.toText.toList, 0x20 ≤ c.toNat := by
  unfold toText Value.toText
  rw [String.toList_ofList]
  exact visible_render (writable_toValue h)

/-- The text of an event is one line. -/
theorem isLine_toText (h : e.Storable) : IsLine e.toText := fun feed =>
  absurd (visible_toText h _ feed) (by decide)

theorem withoutReturn_toText (h : e.Storable) : withoutReturn e.toText = e.toText := by
  unfold withoutReturn
  rw [if_neg]
  intro last
  exact absurd (visible_toText h _ (List.mem_of_getLast? last)) (by decide)

theorem brace_mem_toText (e : Event) : '\x7b' ∈ e.toText.toList := by
  unfold toText Value.toText toValue
  rw [String.toList_ofList, Value.render]
  simp

/-- A line that holds an event gives that event. -/
theorem lineItems_toText (h : e.Storable) (number : Nat) :
    EventReader.lineItems number e.toText = [⟨number, .ok e⟩] := by
  have full : Text.trim e.toText.toList ≠ [] := fun blank =>
    absurd (Text.trim_eq_nil_iff.mp blank _ (brace_mem_toText e)) (by decide)
  unfold EventReader.lineItems EventReader.decodeLine
  rw [if_neg full, ofText_toText h]
  rfl

end Event

/-- Texts that are joined are the first one, a newline and the others. -/
theorem bytesOf_intercalate (text : String) {texts : List String} (more : texts ≠ []) :
    bytesOf ("\n".intercalate (text :: texts)) =
      bytesOf text ++ newline :: bytesOf ("\n".intercalate texts) := by
  have feed : bytesOf "\n" = [newline] := by rw [bytesOf_eq]; rfl
  rw [String.intercalate_cons_of_ne_nil more, bytesOf_append, bytesOf_append, feed, List.append_assoc,
    List.singleton_append]

/-- Each line but the last is ended, and the number of a line counts on from the first. -/
theorem EventReader.items_intercalate (events : List Event) (storable : ∀ e ∈ events, e.Storable)
    (number : Nat) :
    items ⟨bytesOf ("\n".intercalate (events.map Event.toText)), number, false⟩ =
      (events.zipIdx (number + 1)).map fun (e, n) => ⟨n, .ok e⟩ := by
  induction events generalizing number with
  | nil =>
    rw [List.map_nil, String.intercalate_nil, bytesOf_empty]
    exact items_end rfl
  | cons e events ih =>
    rw [List.forall_mem_cons] at storable
    obtain ⟨first, others⟩ := storable
    have one := e.lineItems_toText first (number + 1)
    rw [List.zipIdx_cons, List.map_cons, List.map_cons, ← ih others]
    by_cases last : events = []
    · -- the last line is not ended
      subst last
      have cut := nextLine?_last (Event.isLine_toText first).newline_notMem
        (bytesOf_ne_nil e.brace_mem_toText)
      rw [List.map_nil, String.intercalate_singleton, String.intercalate_nil,
        bytesOf_empty, items_line rfl cut (decodeUtf8?_bytesOf _), one]
      rfl
    · rw [bytesOf_intercalate _ (by simpa using last), items_ended (Event.isLine_toText first),
        Event.withoutReturn_toText first, one]
      rfl

/-- **Events that are written one a line are read back**, each with the number of its line, and nothing
else is. -/
theorem stream_round_trip (events : List Event) (storable : ∀ e ∈ events, e.Storable) :
    (EventReader.ofBytes (bytesOf ("\n".intercalate (events.map Event.toText)))).items =
      (events.zipIdx 1).map fun (e, n) => ⟨n, .ok e⟩ :=
  EventReader.items_intercalate events storable 0

/-- A name with a line break in it, a status below zero and a member without a place. -/
theorem three_lines_read_back :
    (∀ e ∈ [Event.file ⟨some "a\n\"b\"", some (-1)⟩, .classPreprocessed {},
      .classResolved ⟨some "C", none, some ["B"], some { methods := [⟨"C.m", [⟨none⟩]⟩] }, none⟩],
      e.Storable) ∧
    (EventReader.ofBytes (bytesOf ("\n".intercalate
      ([Event.file ⟨some "a\n\"b\"", some (-1)⟩, .classPreprocessed {},
        .classResolved ⟨some "C", none, some ["B"], some { methods := [⟨"C.m", [⟨none⟩]⟩] }, none⟩].map
          Event.toText)))).items =
      [⟨1, .ok (.file ⟨some "a\n\"b\"", some (-1)⟩)⟩, ⟨2, .ok (.classPreprocessed {})⟩,
        ⟨3, .ok (.classResolved
          ⟨some "C", none, some ["B"], some { methods := [⟨"C.m", [⟨none⟩]⟩] }, none⟩)⟩] := by
  have storable : ∀ e ∈ [Event.file ⟨some "a\n\"b\"", some (-1)⟩, .classPreprocessed {},
      .classResolved ⟨some "C", none, some ["B"], some { methods := [⟨"C.m", [⟨none⟩]⟩] }, none⟩],
      e.Storable := by decide
  exact ⟨storable, stream_round_trip _ storable⟩

end SymbolIndex
