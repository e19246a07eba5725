import SymbolIndex.Dictionary
import SymbolIndex.Toml.Scalar

/-!
# `SymbolIndex.Toml.Document` — the tables of a TOML document

A document is a tree of tables. How a table was opened decides what may still be added to it: a
header opens it for good, while a table that was only passed through, by a header or by a dotted key,
waits to be filled in the same way.

## Contents
- `Item`, `Entries`: what a key stands for.
- `alter`: changes the table at a path; `insert`, `openTable`, `openElement` are its uses.
- `readKey`, `readValue`: keys and values.
- `ofText?`: the entries of the top-level table.
-/

namespace SymbolIndex.Toml

/-- How a table came to be. -/
inductive Opening where
  /-- It has a header of its own. -/
  | header
  /-- A longer header goes through it. -/
  | throughHeader
  /-- A dotted key goes through it. -/
  | throughKey
  deriving DecidableEq, Repr, Inhabited

/-- What a key stands for. Only texts and flags keep their value. -/
inductive Item where
  | text (s : String)
  | flag (b : Bool)
  /-- A value of another kind, inline tables and arrays included. -/
  | other
  | table (opening : Opening) (entries : List (String × Item))
  /-- A list of tables, of which only the last can grow. -/
  | tables (last : List (String × Item))

/-- The keys of a table with what they stand for. -/
abbrev Entries := List (String × Item)

/-- What a table is changed to, given how it was opened. -/
abbrev Change := Opening → Entries → Option Entries

/-- Changes the table that a path leads to. Tables that are missing on the way are opened as `via`
says. A path goes through the last table of a list, never through a value, and a dotted key never
through a table that has a header. -/
def alter (via : Opening) (change : Change) : List String → Change
  | [], opening, entries => change opening entries
  | key :: path, _, entries =>
    match Pairs.find? key entries with
    | none => do
      let inner ← alter via change path via []
      some (Pairs.put key (.table via inner) entries)
    | some (.table opening inner) =>
      if via = .throughKey ∧ opening = .header then none
      else do
        let inner ← alter via change path opening inner
        some (Pairs.put key (.table opening inner) entries)
    | some (.tables last) => do
      let last ← alter via change path .header last
      some (Pairs.put key (.tables last) entries)
    | some _ => none

/-- Gives a new key of a table its value. A dotted key adds only to tables that dotted keys have
opened, and a plain key to no such table. -/
def insertHere (dotted : Bool) (key : String) (value : Item) : Change := fun opening entries =>
  if dotted = decide (opening = .throughKey) ∧ (Pairs.find? key entries).isNone then
    some (Pairs.put key value entries)
  else none

/-- A path of keys: the keys to go through, and the last one. -/
structure KeyPath where
  through : List String
  last : String
  deriving DecidableEq, Repr, Inhabited

/-- Gives a key its value, below the table that is open. -/
def insert (path : KeyPath) (value : Item) : Change :=
  alter .throughKey (insertHere (!path.through.isEmpty) path.last value) path.through

/-- Opens the table of a header. Only a table that other headers go through may be there already. -/
def openTable (path : KeyPath) : Change :=
  alter .throughHeader (fun _ entries =>
    match Pairs.find? path.last entries with
    | none => some (Pairs.put path.last (.table .header []) entries)
    | some (.table .throughHeader inner) => some (Pairs.put path.last (.table .header inner) entries)
    | some _ => none) path.through

/-- Opens the next table of a list of tables. -/
def openElement (path : KeyPath) : Change :=
  alter .throughHeader (fun _ entries =>
    match Pairs.find? path.last entries with
    | none | some (.tables _) => some (Pairs.put path.last (.tables []) entries)
    | some _ => none) path.through

/-! ## Keys -/

def isBareKeyChar (c : Char) : Bool :=
  c.isAlphanum || c = '-' || c = '_'

/-- One key: bare, or quoted on one line. -/
def readSimpleKey (text : List Char) : Option (String × List Char) :=
  (readLineString text).or <|
    match text.span isBareKeyChar with
    | ([], _) => none
    | (cs, rest) => some (String.ofList cs, rest)

/-- The keys of a path, with white space around each. -/
def readKeysFrom : (fuel : Nat) → List Char → Option (KeyPath × List Char)
  | 0, _ => none
  | fuel + 1, text => do
    let (key, rest) ← readSimpleKey (skipSpace text)
    match skipSpace rest with
    | '.' :: rest => do
      let (path, rest) ← readKeysFrom fuel rest
      some (⟨key :: path.through, path.last⟩, rest)
    | rest => some (⟨[], key⟩, rest)

/-- The most keys that a path may have. -/
def maxPathLength : Nat := 79

/-- A path of keys joined by dots. -/
def readKey (text : List Char) : Option (KeyPath × List Char) :=
  readKeysFrom maxPathLength text

/-! ## Values -/

/-- The most arrays and inline tables that may be open at a time. -/
def maxDepth : Nat := 79

/-- The elements of an array up to its end. -/
def skipElements (element : Reader Item) : (fuel : Nat) → List Char → Option (List Char)
  | 0, _ => none
  | fuel + 1, text =>
    let skip (text : List Char) := skipGap (text.length + 1) text
    match skip text with
    | ']' :: rest => some rest
    | text => do
      let (_, rest) ← element text
      match skip rest with
      | ']' :: rest => some rest
      | ',' :: rest => skipElements element fuel rest
      | _ => none

/-- The members of an inline table that is not empty, up to its end. -/
def skipMembers (value : Reader Item) : (fuel : Nat) → Entries → List Char → Option (List Char)
  | 0, _, _ => none
  | fuel + 1, entries, text => do
    let (path, rest) ← readKey text
    let rest ← readChar '=' rest
    let (item, rest) ← value (skipSpace rest)
    let entries ← insert path item .header entries
    match skipSpace rest with
    | '}' :: rest => some rest
    | ',' :: rest => skipMembers value fuel entries rest
    | _ => none

/-- A number or a date, by its first character. -/
def readNumber (text : List Char) : Option (Unit × List Char) :=
  ((readDateTime text).or (readFloat text)).or (readInteger text)

/-- A value that does not nest. -/
def readScalar : Reader Item
  | 't' :: 'r' :: 'u' :: 'e' :: rest => some (.flag true, rest)
  | 'f' :: 'a' :: 'l' :: 's' :: 'e' :: rest => some (.flag false, rest)
  | text =>
    ((readString text).map fun (s, rest) => (Item.text s, rest)).or
      ((readNumber text).map fun (_, rest) => (Item.other, rest))

/-- A value, with at most `depth` arrays and inline tables open in it. -/
def readValueWithin : (depth : Nat) → Reader Item
  | 0, text =>
    match text with
    | '[' :: _ | '{' :: _ => none
    | _ => readScalar text
  | depth + 1, text =>
    match text with
    | '[' :: rest =>
      (skipElements (readValueWithin depth) (rest.length + 1) rest).map fun rest => (.other, rest)
    | '{' :: rest =>
      match skipSpace rest with
      | '}' :: rest => some (.other, rest)
      | rest =>
        (skipMembers (readValueWithin depth) (rest.length + 1) [] rest).map fun rest => (.other, rest)
    | _ => readScalar text

def readValue : Reader Item :=
  readValueWithin maxDepth

/-! ## Documents -/

/-- A document that is being read: its tables, and the path of the table that is open. -/
structure Draft where
  entries : Entries := []
  current : List String := []

namespace Draft

/-- Opens a table, or the next table of a list, and makes it the current one. -/
def enter (d : Draft) (isElement : Bool) (path : KeyPath) : Option Draft := do
  let entries ← (if isElement then openElement path else openTable path) .header d.entries
  some ⟨entries, path.through ++ [path.last]⟩

/-- Gives a key of the current table its value. -/
def set (d : Draft) (path : KeyPath) (value : Item) : Option Draft := do
  let entries ← alter .throughHeader (insert path value) d.current .header d.entries
  some { d with entries }

end Draft

/-- A header after its opening brackets. -/
def readHeader (isElement : Bool) (d : Draft) (text : List Char) : Option (Draft × List Char) := do
  let (path, rest) ← readKey text
  let rest ← readChar ']' rest
  let rest ← if isElement then readChar ']' rest else some rest
  let d ← d.enter isElement path
  some (d, rest)

/-- A key with its value. -/
def readEntry (d : Draft) (text : List Char) : Option (Draft × List Char) := do
  let (path, rest) ← readKey text
  let rest ← readChar '=' rest
  let (value, rest) ← readValue (skipSpace rest)
  let d ← d.set path value
  some (d, rest)

/-- The lines of a document. -/
def readLines : (fuel : Nat) → Draft → List Char → Option Entries
  | 0, _, _ => none
  | fuel + 1, d, text =>
    let text := skipSpace text
    if text = [] then some d.entries
    else
      match lineEnd? text with
      | some rest => readLines fuel d rest
      | none => do
        let (d, rest) ← match text with
          | '[' :: '[' :: rest => readHeader true d rest
          | '[' :: rest => readHeader false d rest
          | text => readEntry d text
        readLines fuel d (← lineEnd? rest)

/-- The entries of the top-level table. A byte order mark before them is passed over. -/
def ofText? (text : String) : Option Entries :=
  match text.toList with
  | '\uFEFF' :: rest => readLines (rest.length + 1) {} rest
  | text => readLines (text.length + 1) {} text

end SymbolIndex.Toml
