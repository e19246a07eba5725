import SymbolIndex.Command.Run

/-!
# `SymbolIndex.Main` — the command line

The directory in which the process runs is a workspace. The program hands its arguments to
`Command.run` and writes the transcript to the two output streams.
-/

namespace SymbolIndex

/-- The cause of a refused file operation. -/
def Workspace.Fault.ofRefusal : IO.Error → Workspace.Fault
  | .noFileOrDirectory .. => .notFound
  | .alreadyExists .. => .notFolder
  | .inappropriateType _ code reason => ofCode code reason
  | .invalidArgument _ code reason => ofCode code reason
  | e => .other (toString e)
where
  /-- The system tells causes of one kind apart by number. -/
  ofCode (code : UInt32) (reason : String) : Workspace.Fault :=
    if code = 20 then .notFolder
    else if code = 21 then .isFolder
    else if code = 36 then .nameTooLong
    else .other (reason ++ " (os error " ++ toString code ++ ")")

/-- Runs a file operation and catches its refusal. -/
def Workspace.catching {α : Type} (action : IO α) : IO (Except Workspace.Fault α) := do
  try return .ok (← action)
  catch e => return .error (.ofRefusal e)

instance : Workspace IO where
  kind path := Workspace.catching do
    match ← (IO.FS.realPath path).toBaseIO with
    | .ok found =>
      match (← found.metadata).type with
      | .file => return .file
      | .dir => return .folder
      | _ => return .other
    | .error _ =>
      -- Only opening it tells why a path leads nowhere.
      let _ ← IO.FS.Handle.mk path .read
      return .other
  read path := Workspace.catching do return (← IO.FS.readBinFile path).toList
  write path bytes := Workspace.catching (IO.FS.writeBinFile path ⟨bytes.toArray⟩)
  remove path := Workspace.catching (IO.FS.removeFile path)
  createFolders path := Workspace.catching (IO.FS.createDirAll path)
  here := Workspace.catching do return (← IO.currentDir).toString
  now := IO.monoMsNow

end SymbolIndex

open SymbolIndex in
/-- Runs the program. -/
def main (arguments : List String) : IO UInt32 := do
  let transcript ← (Command.run arguments : IO Command.Transcript)
  IO.print transcript.out
  IO.eprint transcript.err
  return UInt32.ofNat transcript.code
