import SymbolIndex.Command.Invocation

/-!
# `SymbolIndex.Command.Help` — the help texts

Help on a scope says what it is for, how it is called, and what each command and option means. Names
stand in one column and meanings in another; the long help gives each option lines of its own.
-/

namespace SymbolIndex.Command

/-- What a scope is for, in one line. -/
def Scope.summary : Scope → String
  | program => "Symbol resolution and deferred persistence for code indexing"
  | ingest => "Run one indexing session over an event stream"
  | stats => "Show row counts of the store"
  | init => "Write a default xref.toml"
  | help => "Print this message or the help of the given subcommand(s)"

/-- What the program is for, at length. -/
def description : String :=
  "xref consumes the declaration/usage events a front-end parser emits (one JSON\n" ++
  "object per line) and writes the resolved cross-reference model to SQLite in a\n" ++
  "single transaction per session.\n" ++
  "\n" ++
  "Example usage:\n" ++
  "  xref init\n" ++
  "  xref ingest --events events.jsonl\n" ++
  "  xref stats\n\n"

/-- How a scope is called. -/
def Scope.usage : Scope → String
  | program => "xref [OPTIONS] <COMMAND>"
  | ingest => "xref ingest [OPTIONS] --events <EVENTS>"
  | stats => "xref stats [OPTIONS]"
  | init => "xref init [OPTIONS]"
  | help => "xref help [COMMAND]..."

/-- The name of the value that an option takes. -/
def Switch.placeholder : Switch → String
  | events => " <EVENTS>"
  | database => " <DATABASE>"
  | config => " <CONFIG>"
  | _ => ""

/-- Both names of an option, in columns of their own. -/
def Switch.label (s : Switch) : String :=
  (s.letter?.elim "    " fun c => String.ofList ['-', c, ',', ' ']) ++ "--" ++ s.longName ++ s.placeholder

/-- What an option means. Help on the program mentions the other form of help. -/
def Switch.meaning (scope : Scope) (long : Bool) : Switch → String
  | verbose => "Enable verbose logging"
  | help =>
    if scope ≠ .program then "Print help"
    else if long then "Print help (see a summary with '-h')"
    else "Print help (see more with '--help')"
  | version => "Print version"
  | events => "JSON-lines event stream"
  | database => "Path to the database file (overrides the config)"
  | config => "Path to the config file"
  | skipDocumentation => "Do not record documentation comments"
  | force => "Overwrite an existing config"

/-- Names and meanings side by side. -/
def columns (rows : List (String × String)) : String :=
  let width := (rows.map fun row => row.1.length).foldl max 0
  String.join (rows.map fun (name, meaning) =>
    "  " ++ name ++ String.ofList (List.replicate (width - name.length + 2) ' ') ++ meaning ++ "\n")

/-- Each meaning below its name. -/
def stacked (rows : List (String × String)) : String :=
  "\n".intercalate (rows.map fun (name, meaning) => "  " ++ name ++ "\n          " ++ meaning ++ "\n")

/-- The help on a scope. -/
def helpText (scope : Scope) (long : Bool) : String :=
  let long := long && scope = .program
  let heading := if long then description else scope.summary ++ "\n"
  let commands :=
    if scope = .program then
      "\nCommands:\n" ++ columns (Scope.commands.map fun (name, scope) => (name, scope.summary))
    else if scope = .help then
      "\nArguments:\n" ++ columns [("[COMMAND]...", "Print help for the subcommand(s)")]
    else ""
  let options := scope.switches.map fun s => (s.label, s.meaning scope long)
  let options :=
    if options = [] then ""
    else "\nOptions:\n" ++ (if long then stacked options else columns options)
  heading ++ "\nUsage: " ++ scope.usage ++ "\n" ++ commands ++ options

end SymbolIndex.Command
