/-!
# `SymbolIndex.Workspace.Fault` — why a file cannot be used

The causes for which a workspace refuses to read, write or look at a path, and their wording.
-/

namespace SymbolIndex.Workspace

inductive Fault where
  | notFound
  /-- The path goes on below something that is no folder. -/
  | notFolder
  | isFolder
  | nameTooLong
  /-- The path holds a null character. -/
  | nullInName
  /-- The file was to be read as text, and is not UTF-8. -/
  | notUtf8
  | other (reason : String)
  deriving DecidableEq, Repr, Inhabited

def Fault.message : Fault → String
  | notFound => "No such file or directory (os error 2)"
  | notFolder => "Not a directory (os error 20)"
  | isFolder => "Is a directory (os error 21)"
  | nameTooLong => "File name too long (os error 36)"
  | nullInName => "file name contained an unexpected NUL byte"
  | notUtf8 => "stream did not contain valid UTF-8"
  | other reason => reason

end SymbolIndex.Workspace
