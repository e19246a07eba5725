import SymbolIndex.Event.Basic
import SymbolIndex.Json.Form

/-!
# `SymbolIndex.Event.Decode` — events from JSON text

An event is an object with a member `event` that names its kind, or an array that starts with the
kind and goes on with the fields in order. The tag is checked where it stands; the other members are
read in full first and only then taken apart, so a fault of the text comes before a fault of a
field. Unknown members are ignored, a repeated known one is a mismatch.

## Contents
- `Entry`: what a record says about one field, and the readers `required`, `optional`, `defaulted`.
- `entries`: the fields of an object or an array.
- `ofValue?` for each record, `Event.ofContent?` for each kind.
- `Event.ofText`: a text that is one event.
-/

namespace SymbolIndex

open Json

namespace Json

/-- What a record says about one of its fields. -/
inductive Entry where
  | given (v : Value)
  /-- The object has no such member. -/
  | absent
  /-- The array ends before the field. -/
  | cut

namespace Entry

variable {α : Type}

/-- A field that has to be there. -/
def required (read : Value → Option α) : Entry → Option α
  | given v => read v
  | _ => none

/-- A field that may be null, or absent from an object. -/
def optional (read : Value → Option α) : Entry → Option (Option α)
  | given .null => some none
  | given v => (read v).map some
  | absent => some none
  | cut => none

/-- A field with a default. -/
def defaulted (read : Value → Option α) (default : α) : Entry → Option α
  | given v => read v
  | _ => some default

end Entry

namespace Value

/-- The first member of that name. -/
def member? (name : String) : List (String × Value) → Option Value
  | [] => none
  | (k, v) :: rest => if k = name then some v else member? name rest

/-- The fields `names` of an object or an array. There are none if one of them is repeated or the
array is too long. -/
def entries (names : List String) : Value → Option (List Entry)
  | object ms =>
    if ((ms.map Prod.fst).filter fun k => names.contains k).Nodup then
      some (names.map fun name => ((member? name ms).map Entry.given).getD .absent)
    else none
  | array vs =>
    if vs.length ≤ names.length then
      some (vs.map Entry.given ++ List.replicate (names.length - vs.length) .cut)
    else none
  | _ => none

def string? : Value → Option String
  | string s => some s
  | _ => none

/-- An integer from `low` up to but not including `high`. -/
def integer? (low high : Int) : Value → Option Int
  | integer n => if low ≤ n ∧ n < high then some n else none
  | _ => none

def word32? (v : Value) : Option UInt32 :=
  (v.integer? 0 0x100000000).map fun n => UInt32.ofNat n.toNat

def signed64? : Value → Option Int :=
  integer? (-0x8000000000000000) 0x8000000000000000

def list? {α : Type} (read : Value → Option α) : Value → Option (List α)
  | array vs => vs.mapM read
  | _ => none

def strings? : Value → Option (List String) :=
  list? string?

end Value

end Json

open Entry Value

def Position.ofValue? (v : Value) : Option Position := do
  let [line, column] ← v.entries ["line", "column"] | none
  some {
    line := ← line.required word32?
    column := ← column.required word32? }

def Extent.ofValue? (v : Value) : Option Extent := do
  let [start, stop] ← v.entries ["start_position", "end_position"] | none
  some {
    start := ← start.optional Position.ofValue?
    stop := ← stop.optional Position.ofValue? }

def Place.ofValue? (v : Value) : Option Place := do
  let [file, extent] ← v.entries ["file", "range"] | none
  some {
    file := ← file.optional string?
    extent := ← extent.optional Extent.ofValue? }

def UsageReport.ofValue? (v : Value) : Option UsageReport := do
  let [place] ← v.entries ["file_position"] | none
  some { place := ← place.optional Place.ofValue? }

def MemberReport.ofValue? (v : Value) : Option MemberReport := do
  let [name, usages] ← v.entries ["qualified_name", "usages"] | none
  some {
    qualifiedName := ← name.defaulted string? ""
    usages := ← usages.defaulted (list? UsageReport.ofValue?) [] }

def MemberReports.ofValue? (v : Value) : Option MemberReports := do
  let [methods, staticMethods, attributes, staticAttributes, classes] ← v.entries
    ["methods", "static_methods", "attributes", "static_attributes", "classes"] | none
  let group := list? MemberReport.ofValue?
  some {
    methods := ← methods.defaulted group []
    staticMethods := ← staticMethods.defaulted group []
    attributes := ← attributes.defaulted group []
    staticAttributes := ← staticAttributes.defaulted group []
    classes := ← classes.defaulted group [] }

def ModuleImport.ofValue? (v : Value) : Option ModuleImport := do
  let [path, place] ← v.entries ["path", "file_position"] | none
  some {
    path := ← path.optional string?
    place := ← place.optional Place.ofValue? }

def SymbolImport.ofValue? (v : Value) : Option SymbolImport := do
  let [path, symbol, place] ← v.entries ["path", "symbol", "file_position"] | none
  some {
    path := ← path.optional string?
    symbol := ← symbol.optional string?
    place := ← place.optional Place.ofValue? }

def FileReport.ofValue? (v : Value) : Option FileReport := do
  let [path, status] ← v.entries ["path", "parse_status"] | none
  some {
    path := ← path.optional string?
    status := ← status.optional signed64? }

def VariableReport.ofValue? (v : Value) : Option VariableReport := do
  let [name, qualifiedName, place, visibility, types, usages] ← v.entries
    ["name", "qualified_name", "file_position", "visibility", "type", "usages"] | none
  some {
    name := ← name.optional string?
    qualifiedName := ← qualifiedName.optional string?
    place := ← place.optional Place.ofValue?
    visibility := ← visibility.optional string?
    types := ← types.optional strings?
    usages := ← usages.optional (list? UsageReport.ofValue?) }

def FunctionReport.ofValue? (v : Value) : Option FunctionReport := do
  let [name, qualifiedName, place, visibility, types, usages, documentation, parameters, locals] ←
    v.entries ["name", "qualified_name", "file_position", "visibility", "type", "usages",
      "documentation", "parameters", "locals"] | none
  some {
    name := ← name.optional string?
    qualifiedName := ← qualifiedName.optional string?
    place := ← place.optional Place.ofValue?
    visibility := ← visibility.optional string?
    types := ← types.optional strings?
    usages := ← usages.optional (list? UsageReport.ofValue?)
    documentation := ← documentation.optional string?
    parameters := ← parameters.defaulted strings? []
    locals := ← locals.defaulted strings? [] }

def ClassReport.ofValue? (v : Value) : Option ClassReport := do
  let [name, qualifiedName, place, visibility] ← v.entries
    ["name", "qualified_name", "file_position", "visibility"] | none
  some {
    name := ← name.optional string?
    qualifiedName := ← qualifiedName.optional string?
    place := ← place.optional Place.ofValue?
    visibility := ← visibility.optional string? }

def CompletionReport.ofValue? (v : Value) : Option CompletionReport := do
  let [qualifiedName, documentation, bases, members, usages] ← v.entries
    ["qualified_name", "documentation", "base_classes", "members", "usages"] | none
  some {
    qualifiedName := ← qualifiedName.optional string?
    documentation := ← documentation.optional string?
    bases := ← bases.optional strings?
    members := ← members.optional MemberReports.ofValue?
    usages := ← usages.optional (list? UsageReport.ofValue?) }

def ImportReport.ofValue? (v : Value) : Option ImportReport := do
  let [importer, modules, symbols] ← v.entries
    ["importer", "imported_modules", "imported_symbols"] | none
  some {
    importer := ← importer.optional string?
    modules := ← modules.optional (list? ModuleImport.ofValue?)
    symbols := ← symbols.optional (list? SymbolImport.ofValue?) }

namespace Event

/-- The event of a kind whose fields are those of an object or an array. -/
def ofContent? (content : Value) : EventKind → Option Event
  | .file => (FileReport.ofValue? content).map .file
  | .variable => (VariableReport.ofValue? content).map .variable
  | .function => (FunctionReport.ofValue? content).map .function
  | .classPreprocessed => (ClassReport.ofValue? content).map .classPreprocessed
  | .classResolved => (CompletionReport.ofValue? content).map .classResolved
  | .import => (ImportReport.ofValue? content).map .import

/-- A kind, written as a string. -/
def readKind : Reader EventKind :=
  Form.guarded (fun c => c = '"') fun text => do
    let (w, rest) ← string (text.drop 1)
    match Vocabulary.ofWord? w with
    | some kind => .ok (kind, rest)
    | none => .error .mismatch

/-- The event of a tag and a content; without a tag there is none. -/
def ofTagged (tag : Option EventKind) (content : Value) : Except Fault Event :=
  match tag.bind (ofContent? content) with
  | some event => .ok event
  | none => .error .mismatch

/-- Reads one member of an event: the tag, which may come once and at any place, or a value. -/
def readMember (seen : Option EventKind × List (String × Value)) (name : String) :
    Reader (Option EventKind × List (String × Value)) := fun text =>
  if name = "event" then
    match seen.1 with
    | some _ => .error .mismatch
    | none => do
      let text ← colon text
      let (kind, text) ← readKind text
      .ok ((some kind, seen.2), text)
  else do
    let text ← colon text
    let (v, text) ← value strict (maxDepth - 1) text
    .ok ((seen.1, seen.2 ++ [(name, v)]), text)

/-- Reads one element of an event written as an array: first the tag, then values. -/
def readElement (seen : Option EventKind × List Value) : Reader (Option EventKind × List Value) :=
  fun text =>
    match seen.1 with
    | none => do
      let (kind, text) ← readKind text
      .ok ((some kind, []), text)
    | some _ => do
      let (v, text) ← value strict (maxDepth - 1) text
      .ok ((seen.1, seen.2 ++ [v]), text)

/-- An event at the start of a text. -/
def read : Reader Event := fun text =>
  match skipSpace text with
  | [] => .error .unfinished
  | c :: rest =>
    if c = '\x7b' then do
      let ((tag, ms), rest) ← Json.members strict readMember (none, []) rest
      let event ← ofTagged tag (.object ms)
      .ok (event, rest)
    else if c = '[' then do
      let ((tag, vs), rest) ← elements readElement (none, []) rest
      let event ← ofTagged tag (.array vs)
      .ok (event, rest)
    else Form.otherType (c :: rest)

/-- A text that is one event. -/
def ofText (text : String) : Except Fault Event :=
  whole read text.toList

end Event

end SymbolIndex
