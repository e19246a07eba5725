import SymbolIndex.Id

/-!
# `SymbolIndex.Location` — where something stands in a source tree

A position is a line and a column, a range two positions, a location a range in a file. Two
occurrences of a symbol are the same occurrence exactly when their locations are equal. Positions
are ordered by line, then by column; ranges by start, then by end.
-/

namespace SymbolIndex

structure Position where
  line : UInt32
  column : UInt32
  deriving DecidableEq, Repr, Inhabited

structure Range where
  start : Position
  stop : Position
  deriving DecidableEq, Repr, Inhabited

structure Location where
  file : FileId
  range : Range
  deriving DecidableEq, Repr, Inhabited

/-- Line first, then column. -/
def Position.compare (a b : Position) : Ordering :=
  (Ord.compare a.line b.line).then (Ord.compare a.column b.column)

/-- Start first, then end. -/
def Range.compare (a b : Range) : Ordering :=
  (a.start.compare b.start).then (a.stop.compare b.stop)

def Position.toText (p : Position) : String :=
  Nat.repr p.line.toNat ++ ":" ++ Nat.repr p.column.toNat

/-- Start and end with a dash between them, each as `line:column`. -/
def Range.toText (r : Range) : String :=
  r.start.toText ++ "-" ++ r.stop.toText

/-- The file and the range, as `file@range`. -/
def Location.toText (l : Location) : String :=
  l.file.toText ++ "@" ++ l.range.toText

end SymbolIndex
