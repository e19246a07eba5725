/-!
# `SymbolIndex.Command.Invocation` — what a list of arguments asks for

Arguments are read from left to right. The first one that asks for help or for the version ends the
reading, and so does the first one that makes no sense; what is missing is noticed only at the end.

## Contents
- `Switch`: the options, with their names.
- `Scope`: the program and its commands, with the options that each knows.
- `readSwitches`: the options of one scope.
- `Invocation.ofArguments`.
-/

namespace SymbolIndex.Command

/-! ## Options -/

inductive Switch where
  | verbose
  | help
  | version
  | events
  | database
  | config
  | skipDocumentation
  | force
  deriving DecidableEq, Repr, Inhabited

namespace Switch

/-- The name after two dashes. -/
def longName : Switch → String
  | verbose => "verbose"
  | help => "help"
  | version => "version"
  | events => "events"
  | database => "database"
  | config => "config"
  | skipDocumentation => "skip-doccomment"
  | force => "force"

/-- The letter after one dash. -/
def letter? : Switch → Option Char
  | verbose => some 'v'
  | help => some 'h'
  | version => some 'V'
  | events => some 'e'
  | database => some 'd'
  | config => some 'c'
  | skipDocumentation => none
  | force => some 'f'

def takesValue : Switch → Bool
  | events | database | config => true
  | _ => false

end Switch

/-- The program itself, or one of its commands. -/
inductive Scope where
  | program
  | ingest
  | stats
  | init
  | help
  deriving DecidableEq, Repr, Inhabited

namespace Scope

/-- The commands of the program with their names. -/
def commands : List (String × Scope) :=
  [("ingest", ingest), ("stats", stats), ("init", init), ("help", help)]

def ofName? (name : String) : Option Scope :=
  commands.lookup name

def switches : Scope → List Switch
  | program => [.verbose, .help, .version]
  | ingest => [.events, .verbose, .database, .config, .skipDocumentation, .help]
  | stats => [.database, .verbose, .help]
  | init => [.force, .verbose, .help]
  | help => []

def ofLongName? (scope : Scope) (name : String) : Option Switch :=
  scope.switches.find? fun s => s.longName = name

def ofLetter? (scope : Scope) (letter : Char) : Option Switch :=
  scope.switches.find? fun s => s.letter? = some letter

end Scope

/-! ## Requests -/

structure IngestOptions where
  events : String
  database : Option String := none
  config : Option String := none
  skipDocumentation : Bool := false
  deriving DecidableEq, Repr, Inhabited

/-- A command that can be carried out. -/
inductive Request where
  | ingest (options : IngestOptions)
  | stats (database : Option String)
  | init (force : Bool)
  deriving DecidableEq, Repr, Inhabited

/-- What a list of arguments asks for. -/
inductive Invocation where
  | run (verbose : Bool) (request : Request)
  | version
  /-- Help on the program or a command; on the program there is a long one. -/
  | help (scope : Scope) (long : Bool)
  | invalid
  deriving DecidableEq, Repr, Inhabited

/-! ## The options of one scope -/

/-- The options that have been given, with their values. -/
abbrev Given := List (Switch × String)

/-- Whether an argument can be the value of the option before it. -/
def isValue (argument : String) : Bool :=
  argument.toList.head? != some '-' || argument = "-"

/-- Takes note of an option. None can be given twice, and no value is empty. -/
def note (given : Given) (switch : Switch) (value : String) : Except Invocation Given :=
  if (given.lookup switch).isSome || (switch.takesValue && value = "") then .error .invalid
  else .ok (given ++ [(switch, value)])

/-- Takes note of an option without a value. -/
def noteFlag (scope : Scope) (given : Given) (switch : Switch) (long : Bool) :
    Except Invocation Given :=
  match switch with
  | .help => .error (.help scope long)
  | .version => .error .version
  | _ => note given switch ""

/-- The letters after one dash. What follows the letter of an option with a value is that value,
after an equals sign that may be left out; if nothing follows, the letter waits for the next argument. -/
def readLetters (scope : Scope) : Given → List Char → Except Invocation (Given × Option Switch)
  | given, [] => .ok (given, none)
  | given, c :: cs =>
    match scope.ofLetter? c with
    | none => .error .invalid
    | some switch =>
      if switch.takesValue then
        match cs with
        | [] => .ok (given, some switch)
        | '=' :: value | value => do
          let given ← note given switch (String.ofList value)
          .ok (given, none)
      else do
        let given ← noteFlag scope given switch false
        readLetters scope given cs

/-- The name after two dashes, with the value after an equals sign if there is one. -/
def readLong (scope : Scope) (given : Given) (text : List Char) :
    Except Invocation (Given × Option Switch) :=
  let name := String.ofList (text.takeWhile (· != '='))
  match scope.ofLongName? name, text.dropWhile (· != '=') with
  | none, _ => .error .invalid
  | some switch, [] =>
    if switch.takesValue then .ok (given, some switch)
    else do
      let given ← noteFlag scope given switch true
      .ok (given, none)
  | some switch, _ :: value =>
    if switch.takesValue then do
      let given ← note given switch (String.ofList value)
      .ok (given, none)
    else .error .invalid

/-- The options of a scope, up to the end or to the name of a command. Two dashes on their own end
the options, and nothing may follow them. -/
def readSwitches (scope : Scope) :
    Given → List String → Except Invocation (Given × Option (Scope × List String))
  | given, [] => .ok (given, none)
  | given, argument :: rest =>
    match if scope = .program then Scope.ofName? argument else none with
    | some command => .ok (given, some (command, rest))
    | none =>
      match argument.toList with
      | ['-', '-'] => if rest = [] then .ok (given, none) else .error .invalid
      | '-' :: c :: cs => do
        let (given, waiting) ← if c = '-' then readLong scope given cs else readLetters scope given (c :: cs)
        match waiting, rest with
        | none, rest => readSwitches scope given rest
        | some _, [] => .error .invalid
        | some switch, value :: rest =>
          if isValue value then do
            let given ← note given switch value
            readSwitches scope given rest
          else .error .invalid
      | _ => .error .invalid

/-! ## Invocations -/

namespace Invocation

/-- The command of a scope with the options that were given for it. -/
def request? (scope : Scope) (given : Given) : Option Request :=
  let value (s : Switch) := given.lookup s
  let flag (s : Switch) := (given.lookup s).isSome
  match scope with
  | .ingest => (value .events).map fun events =>
    .ingest ⟨events, value .database, value .config, flag .skipDocumentation⟩
  | .stats => some (.stats (value .database))
  | .init => some (.init (flag .force))
  | .program | .help => none

/-- What help is asked for by the arguments of the help command. -/
def ofHelpArguments : List String → Invocation
  | [] => .help .program true
  | [name] => (Scope.ofName? name).elim .invalid fun scope => .help scope true
  | _ => .invalid

/-- What a list of arguments asks for, or how its reading ended. -/
def read (arguments : List String) : Except Invocation Invocation := do
  let (outer, command) ← readSwitches .program [] arguments
  match command with
  | none => .error .invalid
  | some (.help, rest) => .ok (ofHelpArguments rest)
  | some (scope, rest) =>
    let (inner, _) ← readSwitches scope [] rest
    let verbose := ((outer ++ inner).lookup .verbose).isSome
    .ok ((request? scope inner).elim .invalid (.run verbose))

/-- What a list of arguments asks for. -/
def ofArguments (arguments : List String) : Invocation :=
  match read arguments with
  | .ok invocation | .error invocation => invocation

end Invocation

end SymbolIndex.Command
