import SymbolIndex.Command.Help
import SymbolIndex.Config
import SymbolIndex.Event.File
import SymbolIndex.IgnoreList
import SymbolIndex.Report.Duration
import SymbolIndex.Report.Table
import SymbolIndex.Session.Flush
import SymbolIndex.Session.Ingest
import SymbolIndex.Store.File
import SymbolIndex.Store.Query
import SymbolIndex.Text.Visible

/-!
# `SymbolIndex.Command.Run` — carrying out a command

A command works in a workspace and ends with a transcript: an exit code and what was written to the
two output streams. Whatever fails before the first event is read leaves the store alone.

## Contents
- `Transcript`, `Failure`: how a command ends.
- `ingest`, `stats`, `init`: the commands.
- `run`: a list of arguments.
-/

namespace SymbolIndex.Command

/-! ## How a command ends -/

structure Transcript where
  code : Nat := 0
  out : String := ""
  err : String := ""
  deriving DecidableEq, Repr, Inhabited

/-- Why a command gives up. -/
inductive Failure where
  | config (fault : ConfigFault)
  | access (fault : Workspace.Fault)
  | noDatabase (path : String)
  | error (cause : Error)
  deriving DecidableEq, Repr, Inhabited

def Failure.message : Failure → String
  | config fault => fault.message
  | access fault => fault.message
  | noDatabase path => "no database at " ++ path ++ " (run `xref ingest` first)"
  | error cause => cause.message

/-- The transcript with a failure at its end. -/
def Transcript.failed (t : Transcript) (failure : Failure) : Transcript :=
  { t with code := 1, err := t.err ++ "Error: " ++ failure.message ++ "\n" }

/-! ## Lines of output -/

/-- Marks at the start of a line. -/
structure Icons where
  rocket : String := "🚀"
  check : String := "✅"
  cross : String := "❌"
  warning : String := "⚠️"
  info : String := "ℹ️"
  statistics : String := "📊"
  link : String := "🔗"
  file : String := "📄"
  package : String := "📦"

def icons : Icons := {}

def infoLine (label value : String) : String :=
  icons.info ++ " " ++ label ++ ": " ++ value ++ "\n"

/-- A heading with an empty line before it. -/
def titleLine (title : String) : String :=
  "\n━" ++ title ++ "━\n"

def tableLines (rows : List (String × Nat)) : String :=
  Report.countsTable rows ++ "\n"

/-- The part of the program that a log line names. -/
def target : Origin → String
  | .session => "xref::session"
  | .store => "xref::storage::sqlite"

/-- The log lines that are shown: all of them, or all but the most detailed. No message steers the
terminal. -/
def logLines (verbose : Bool) (log : List LogLine) : String :=
  let shown := log.filter fun l => verbose || l.level ≠ .debug
  String.join (shown.map fun l =>
    l.level.word ++ " " ++ target l.origin ++ ": " ++ Text.visible l.text ++ "\n")

/-- What is said about a session that was flushed. -/
def summaryLines (milliseconds : Nat) (r : FlushReport) : String :=
  "\n" ++ icons.check ++ " Session flushed in " ++ Report.durationText milliseconds ++ "\n" ++
  "  " ++ icons.file ++ " " ++ Nat.repr r.ingest.events ++ " events  " ++
  icons.package ++ " " ++ Nat.repr r.pending.entities ++ " entities  " ++
  icons.link ++ " " ++ Nat.repr r.pending.relations ++ " relations\n" ++
  titleLine "Ingest" ++ tableLines r.ingest.rows ++
  titleLine "Flush" ++ tableLines [
    ("AST nodes", r.pending.nodes),
    ("Entities", r.pending.entities),
    ("Relations", r.pending.relations),
    ("Rows written", r.batch.written),
    ("Conflicts skipped", r.batch.conflicts)]

/-- The warning about records and events that were left out, if there are any. -/
def warningLine (stats : IngestStats) : String :=
  if 0 < stats.skippedRecords ∨ 0 < stats.malformedEvents then
    icons.warning ++ " " ++ Nat.repr stats.skippedRecords ++ " records skipped, " ++
      Nat.repr stats.malformedEvents ++ " malformed events (run with --verbose for details)\n"
  else ""

/-! ## Commands -/

variable {m : Type → Type} [Monad m] [Workspace m]

/-- The store to use: the one that was asked for, else that of the settings, else the default. -/
def databasePath (asked : Option String) (config : Option Config) : String :=
  (asked.or (config.bind Config.database)).getD (Config.defaultDatabase ".")

/-- A step that can fail, as a step of a command. -/
def attempt {ε α : Type} (toFailure : ε → Failure) (step : m (Except ε α)) : ExceptT Failure m α :=
  ExceptT.mk (return (← step).mapError toFailure)

/-- Runs one session over an event stream and writes its records to the store. -/
def ingest (verbose : Bool) (o : IngestOptions) : ExceptT Failure m Transcript := do
  let config ← attempt .config (Config.load (o.config.getD Config.fileName))
  let database := databasePath o.database config
  let options : Options :=
    { skipDocumentation := o.skipDocumentation || config.any Config.skipDocumentation }
  let reader ← attempt .error (EventReader.ofFile o.events)
  attempt .access (Config.ensureFolder database)
  let opened ← attempt .error (Store.openAt database)
  let heading := icons.rocket ++ " Indexing session\n" ++
    infoLine "Events" o.events ++ infoLine "Database" database
  let started ← (Workspace.now : m Nat)
  let flush := ((Session.begin opened.store options).ingestAll reader.items).finalize
  attempt .error (Store.save opened flush.store)
  let finished ← (Workspace.now : m Nat)
  let log := logLines verbose flush.log
  match flush.outcome with
  | .ok report =>
    return {
      out := heading ++ summaryLines (finished - started) report
      err := log ++ warningLine report.ingest }
  | .error e =>
    let transcript : Transcript := {
      out := heading
      err := log ++ icons.cross ++ " Flush failed, nothing from this session was written\n" }
    return transcript.failed (.error e)

/-- Shows the row counts of the store. -/
def stats (asked : Option String) : ExceptT Failure m Transcript := do
  let config ← attempt .config (Config.load Config.fileName)
  let database := databasePath asked config
  if ← (Workspace.leadsSomewhere database : m Bool) then
    let opened ← attempt .error (Store.openAt database)
    match opened.store.statistics with
    | .error e => throw (.error e)
    | .ok statistics =>
      return { out := icons.statistics ++ " xref statistics " ++ database ++ "\n" ++
        tableLines statistics.rows }
  else throw (.noDatabase database)

/-- Saves the default settings and keeps the store out of version control. -/
def init (force : Bool) : ExceptT Failure m Transcript := do
  let database := Config.defaultDatabase "."
  attempt .config (Config.save Config.fileName { database := some database } force)
  attempt .access (IgnoreList.ensure ".")
  return { out := icons.check ++ " Wrote " ++ Config.fileName ++ "\n" ++ infoLine "Database" database }

/-- The transcript of a command, whether it succeeds or gives up. -/
def settle (command : ExceptT Failure m Transcript) : m Transcript := do
  match ← command.run with
  | .ok transcript => return transcript
  | .error failure => return ({} : Transcript).failed failure

def versionText : String := "xref 0.0.1\n"

/-- The exit code of arguments that make no sense. -/
def invalidCode : Nat := 2

/-- Carries out what a list of arguments asks for. -/
def run (arguments : List String) : m Transcript :=
  match Invocation.ofArguments arguments with
  | .run verbose (.ingest options) => settle (ingest verbose options)
  | .run _ (.stats database) => settle (stats database)
  | .run _ (.init force) => settle (init force)
  | .version => return { out := versionText }
  | .help scope long => return { out := helpText scope long }
  | .invalid => return { code := invalidCode }

end SymbolIndex.Command
