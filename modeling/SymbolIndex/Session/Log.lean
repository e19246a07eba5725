import SymbolIndex.Store.Table

/-!
# `SymbolIndex.Session.Log` — what a session tells about its work

A log line has a level, the part of the program that it comes from, and a text.
-/

namespace SymbolIndex

inductive Level where
  | debug
  | info
  | warn
  | error
  deriving DecidableEq, Repr, Inhabited

def Level.word : Level → String
  | .debug => "DEBUG"
  | .info => "INFO"
  | .warn => "WARN"
  | .error => "ERROR"

/-- The part of the program that a line comes from. -/
inductive Origin where
  | session
  | store
  deriving DecidableEq, Repr, Inhabited

structure LogLine where
  level : Level
  origin : Origin := .session
  text : String
  deriving DecidableEq, Repr, Inhabited

/-- The level and the text. -/
def LogLine.toText (l : LogLine) : String :=
  l.level.word ++ " " ++ l.text

/-- The line for a record that was left out of a batch. -/
def LogLine.conflict (t : Store.TableName) : LogLine where
  level := .warn
  origin := .store
  text := "Skipping conflicting " ++ Vocabulary.word t ++ " record"

end SymbolIndex
