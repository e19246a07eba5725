/-!
# `SymbolIndex.Text.Lines` — the lines of a text

`splitLines` cuts a text at every newline. Put together again with newlines between them, the lines
are the text (`intercalate_splitLines`).
-/

namespace SymbolIndex.Text

/-- The lines of a text, cut at every newline; there is always at least one. -/
def splitLines : List Char → List (List Char)
  | [] => [[]]
  | c :: cs =>
    if c = '\n' then [] :: splitLines cs
    else match splitLines cs with
      | [] => [[c]]
      | line :: rest => (c :: line) :: rest

theorem splitLines_ne_nil (cs : List Char) : splitLines cs ≠ [] := by
  cases cs with
  | nil => simp [splitLines]
  | cons c cs =>
    unfold splitLines
    split
    · simp
    · split <;> simp

theorem intercalate_splitLines (cs : List Char) : ['\n'].intercalate (splitLines cs) = cs := by
  induction cs with
  | nil => rfl
  | cons c cs ih =>
    unfold splitLines
    split
    · rename_i newline
      cases rest : splitLines cs with
      | nil => exact absurd rest (splitLines_ne_nil cs)
      | cons line lines =>
        rw [rest] at ih
        simp [List.intercalate, List.intersperse] at ih ⊢
        rw [ih, newline]
        exact ⟨rfl, rfl⟩
    · split
      · rename_i rest
        exact absurd rest (splitLines_ne_nil cs)
      · rename_i line lines rest
        rw [rest] at ih
        cases lines with
        | nil => simpa [List.intercalate, List.intersperse] using ih
        | cons next lines => simpa [List.intercalate, List.intersperse] using ih

end SymbolIndex.Text
