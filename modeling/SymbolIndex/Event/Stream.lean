import SymbolIndex.Error
import SymbolIndex.Event.Decode
import SymbolIndex.Text.Blank

/-!
# `SymbolIndex.Event.Stream` — events from a stream of bytes

A stream holds one event a line. Lines end at a newline, and a carriage return right before it
belongs to the line end. Blank lines are passed over but counted. A line that is not UTF-8 is
reported once and ends the stream.

## Contents
- `nextLine?`: one line off the front of a byte string.
- `EventReader.next`: the next item with the reader after it.
- `EventReader.items`: all items of a stream.
-/

namespace SymbolIndex

/-- What a line of a stream holds, with the number of the line. -/
structure StreamItem where
  line : Nat
  content : Except Error Event

def newline : UInt8 := 10
def carriageReturn : UInt8 := 13

/-- A line without the carriage return at its end. -/
def dropCarriageReturn (line : List UInt8) : List UInt8 :=
  if line.getLast? = some carriageReturn then line.dropLast else line

/-- The first line of a byte string and the bytes after it. The last line need not be ended. -/
def nextLine? (bytes : List UInt8) : Option (List UInt8 × List UInt8) :=
  if bytes = [] then none
  else
    let line := bytes.takeWhile (· != newline)
    match bytes.dropWhile (· != newline) with
    | [] => some (line, [])
    | _ :: rest => some (dropCarriageReturn line, rest)

theorem length_lt_of_nextLine? {bytes line rest : List UInt8}
    (h : nextLine? bytes = some (line, rest)) : rest.length < bytes.length := by
  unfold nextLine? at h
  split at h
  · cases h
  · rename_i nonempty
    have shorter := (List.dropWhile_sublist (l := bytes) (· != newline)).length_le
    simp only at h
    split at h
    · cases h
      exact List.length_pos_iff.2 nonempty
    · rename_i cut
      cases h
      rw [cut, List.length_cons] at shorter
      exact shorter

/-- What holds of bytes that have no line in them, and of bytes when it holds of those after their first
line, holds of all bytes. -/
theorem lines_induction {motive : List UInt8 → Prop}
    (none : ∀ bytes, nextLine? bytes = none → motive bytes)
    (line : ∀ bytes line rest, nextLine? bytes = some (line, rest) → motive rest → motive bytes)
    (bytes : List UInt8) : motive bytes := by
  induction size : bytes.length using Nat.strongRecOn generalizing bytes with
  | _ size ih =>
    cases cut : nextLine? bytes with
    | none => exact none bytes cut
    | some first =>
      have shorter := length_lt_of_nextLine? cut
      exact line bytes first.1 first.2 cut (ih first.2.length (size ▸ shorter) first.2 rfl)

/-- The text that a byte string spells in UTF-8. -/
def decodeUtf8? (bytes : List UInt8) : Option String :=
  String.fromUTF8? ⟨bytes.toArray⟩

/-- Reads a stream from its front. -/
structure EventReader where
  rest : List UInt8
  /-- How many lines have been read. -/
  line : Nat := 0
  /-- Whether a line was not UTF-8. -/
  finished : Bool := false

namespace EventReader

def ofBytes (bytes : List UInt8) : EventReader :=
  { rest := bytes }

/-- The item of a line that is not blank. -/
def decodeLine (text : String) : Except Error Event :=
  (Event.ofText text).mapError .malformedEvent

/-- The next item, unless the stream has come to its end, and the reader after it. -/
def next (r : EventReader) : Option StreamItem × EventReader :=
  if r.finished then (none, r)
  else
    match _h : nextLine? r.rest with
    | none => (none, r)
    | some (line, rest) =>
      match decodeUtf8? line with
      | none => (some ⟨r.line + 1, .error .notUtf8⟩, ⟨rest, r.line + 1, true⟩)
      | some text =>
        if Text.trim text.toList = [] then next ⟨rest, r.line + 1, false⟩
        else (some ⟨r.line + 1, decodeLine text⟩, ⟨rest, r.line + 1, false⟩)
termination_by r.rest.length
decreasing_by exact length_lt_of_nextLine? _h

variable {r : EventReader} {line rest : List UInt8}

theorem next_finished (h : r.finished = true) : r.next = (none, r) := by
  rw [next, if_pos h]

theorem next_end (h : nextLine? r.rest = none) : r.next = (none, r) := by
  rw [next]
  split
  · rfl
  · split
    · rfl
    · rename_i cut
      rw [h] at cut
      cases cut

/-- What a reader does with a line: a line that is no text ends the stream, a blank one is passed over. -/
theorem next_line (more : r.finished = false) (cut : nextLine? r.rest = some (line, rest)) :
    r.next = match decodeUtf8? line with
      | none => (some ⟨r.line + 1, .error .notUtf8⟩, ⟨rest, r.line + 1, true⟩)
      | some text =>
        if Text.trim text.toList = [] then next ⟨rest, r.line + 1, false⟩
        else (some ⟨r.line + 1, decodeLine text⟩, ⟨rest, r.line + 1, false⟩) := by
  rw [next, if_neg (by rw [more]; decide)]
  split
  · rename_i none
    rw [cut] at none
    cases none
  · rename_i line' rest' cut'
    rw [cut] at cut'
    cases cut'
    rfl

theorem length_lt_of_next {item : StreamItem} {r' : EventReader} (h : r.next = (some item, r')) :
    r'.rest.length < r.rest.length := by
  obtain ⟨bytes, number, finished⟩ := r
  induction bytes using lines_induction generalizing number finished with
  | none bytes cut =>
    rw [next_end cut] at h
    cases h
  | line bytes line rest cut ih =>
    have shorter := length_lt_of_nextLine? cut
    cases finished with
    | true =>
      rw [next_finished rfl] at h
      cases h
    | false =>
      rw [next_line rfl cut] at h
      cases text : decodeUtf8? line with
      | none =>
        rw [text] at h
        cases h
        exact shorter
      | some text' =>
        rw [text] at h
        dsimp only at h
        split at h
        · exact Nat.lt_trans (ih _ _ h) shorter
        · cases h
          exact shorter

/-- All items that a reader gives. -/
def items (r : EventReader) : List StreamItem :=
  match _h : r.next with
  | (none, _) => []
  | (some item, r') => item :: items r'
termination_by r.rest.length
decreasing_by exact length_lt_of_next _h

end EventReader

end SymbolIndex
