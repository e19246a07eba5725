import SymbolIndex.Json.Fault
import SymbolIndex.Kind
import SymbolIndex.Workspace.Fault

/-!
# `SymbolIndex.Error` — causes of failure and their wording

An error is a cause, and `Error.message` is the only place where causes are put into words. What a
database or a reader of JSON would add to its refusal is left out.
-/

namespace SymbolIndex

/-- How far a class has come: announced with its name, then completed with its members. -/
inductive ClassState where
  | unseen
  | preprocessed
  | resolved
  deriving DecidableEq, Repr, Inhabited

def ClassState.word : ClassState → String
  | .unseen => "unseen"
  | .preprocessed => "preprocessed"
  | .resolved => "resolved"

/-- Failures that end a session before or at its last write. -/
inductive FatalCause where
  | streamUnreadable (path : String) (fault : Workspace.Fault)
  | streamNotRegular (path : String)
  | storeUnavailable
  deriving DecidableEq, Repr, Inhabited

def FatalCause.message : FatalCause → String
  | .streamUnreadable path fault => "cannot open event stream " ++ path ++ ": " ++ fault.message
  | .streamNotRegular path => "event stream " ++ path ++ " is not a regular file"
  | .storeUnavailable => "store unavailable"

inductive Error where
  /-- The database refused a statement. -/
  | storage
  /-- A line of a stream is not UTF-8. -/
  | notUtf8
  /-- A line of a stream is not an event. -/
  | malformedEvent (fault : Json.Fault)
  /-- A word is not in the vocabulary called `noun`. -/
  | unknownWord (noun word : String)
  | unknownTable (name : String)
  | missingField (field : String)
  | unresolvedReference (name : String)
  | invalidTransition (qualifiedName : String) (state target : ClassState)
  | duplicateDeclaration (qualifiedName : String) (existing : EntityKind)
  | fatal (cause : FatalCause)
  deriving DecidableEq, Repr, Inhabited

namespace Error

/-- The wording of an error. -/
def message : Error → String
  | storage => "Storage error"
  | notUtf8 => "IO error: stream did not contain valid UTF-8"
  | malformedEvent _ => "Malformed event"
  | unknownWord noun word => "Parse error: Unknown " ++ noun ++ ": " ++ word
  | unknownTable name => "Parse error: Unknown table: " ++ name
  | missingField field => "Missing required field: " ++ field
  | unresolvedReference name => "Unresolved reference: " ++ name
  | invalidTransition name state target =>
    "Invalid class transition for " ++ name ++ ": " ++ state.word ++ " -> " ++ target.word
  | duplicateDeclaration name existing =>
    "Duplicate declaration of " ++ name ++ " (already registered as " ++ Vocabulary.word existing ++ ")"
  | fatal cause => "Fatal: " ++ cause.message

end Error

namespace Vocabulary

/-- The value written as `w`, or the error that names the vocabulary and the word. -/
def ofWord {α : Type} [Vocabulary α] (w : String) : Except Error α :=
  match ofWord? w with
  | some a => .ok a
  | none => .error (.unknownWord (noun α) w)

end Vocabulary

end SymbolIndex
