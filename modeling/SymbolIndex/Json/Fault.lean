/-!
# `SymbolIndex.Json.Fault` — why a JSON text is refused
-/

namespace SymbolIndex.Json

/-- The three ways in which reading a JSON text fails. Reading goes from left to right and the
first fault decides. -/
inductive Fault where
  /-- The text ended inside a value, or held none. -/
  | unfinished
  /-- The text is not JSON. -/
  | malformed
  /-- The text is JSON of another shape than the one asked for. -/
  | mismatch
  deriving DecidableEq, Repr, Inhabited

end SymbolIndex.Json
