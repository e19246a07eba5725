/-!
# `SymbolIndex.Vocabulary` — finite types whose values are written as words

A vocabulary lists its values and gives each a word of its own. `ofWord?` reads a word back; the
main statement `ofWord?_word` says that it reads what `word` writes.
-/

namespace SymbolIndex

/-- A finite type with one distinct word for each value. -/
class Vocabulary (α : Type) where
  /-- What the values are called in messages. -/
  noun : String
  all : List α
  word : α → String
  mem_all : ∀ a, a ∈ all
  word_injective : ∀ a b, word a = word b → a = b

namespace Vocabulary

variable {α : Type} [Vocabulary α]

/-- The value written as `w`. -/
def ofWord? (w : String) : Option α :=
  (all : List α).find? fun a => word a = w

theorem ofWord?_word (a : α) : ofWord? (word a) = some a := by
  unfold ofWord?
  cases found : (all : List α).find? fun b => word b = word a with
  | none =>
    have := List.find?_eq_none.1 found a (mem_all a)
    simp at this
  | some b =>
    have same := List.find?_some found
    rw [word_injective b a (by simpa using same)]

theorem word_of_ofWord? {w : String} {a : α} (h : ofWord? w = some a) : word a = w := by
  simpa using List.find?_some h

theorem ofWord?_eq_some_iff {w : String} {a : α} : ofWord? w = some a ↔ w = word a :=
  ⟨fun h => (word_of_ofWord? h).symm, fun h => h ▸ ofWord?_word a⟩

end Vocabulary

end SymbolIndex
