import SymbolIndex.Event.Basic
import SymbolIndex.Json.Value

/-!
# `SymbolIndex.Event.Print` — events as JSON text

An event is written as one compact object: the tag `event` first, then its fields in declared order,
what is missing as null.
-/

namespace SymbolIndex

open Json

/-- What is missing is null. -/
def Json.Value.ofOption {α : Type} (write : α → Value) : Option α → Value
  | none => .null
  | some a => write a

def Json.Value.ofList {α : Type} (write : α → Value) (as : List α) : Value :=
  .array (as.map write)

def Json.Value.ofStrings (names : List String) : Value :=
  .ofList .string names

def Position.toValue (p : Position) : Value :=
  .object [("line", .integer p.line.toNat), ("column", .integer p.column.toNat)]

def Extent.toValue (e : Extent) : Value :=
  .object [("start_position", .ofOption Position.toValue e.start),
    ("end_position", .ofOption Position.toValue e.stop)]

def Place.toValue (p : Place) : Value :=
  .object [("file", .ofOption .string p.file), ("range", .ofOption Extent.toValue p.extent)]

def UsageReport.toValue (u : UsageReport) : Value :=
  .object [("file_position", .ofOption Place.toValue u.place)]

def MemberReport.toValue (m : MemberReport) : Value :=
  .object [("qualified_name", .string m.qualifiedName),
    ("usages", .ofList UsageReport.toValue m.usages)]

def MemberReports.toValue (m : MemberReports) : Value :=
  .object [("methods", .ofList MemberReport.toValue m.methods),
    ("static_methods", .ofList MemberReport.toValue m.staticMethods),
    ("attributes", .ofList MemberReport.toValue m.attributes),
    ("static_attributes", .ofList MemberReport.toValue m.staticAttributes),
    ("classes", .ofList MemberReport.toValue m.classes)]

def ModuleImport.toValue (m : ModuleImport) : Value :=
  .object [("path", .ofOption .string m.path), ("file_position", .ofOption Place.toValue m.place)]

def SymbolImport.toValue (s : SymbolImport) : Value :=
  .object [("path", .ofOption .string s.path), ("symbol", .ofOption .string s.symbol),
    ("file_position", .ofOption Place.toValue s.place)]

/-- The members of an event after its tag. -/
def Event.members : Event → List (String × Value)
  | .file r =>
    [("path", .ofOption .string r.path), ("parse_status", .ofOption .integer r.status)]
  | .variable r =>
    [("name", .ofOption .string r.name), ("qualified_name", .ofOption .string r.qualifiedName),
      ("file_position", .ofOption Place.toValue r.place),
      ("visibility", .ofOption .string r.visibility),
      ("type", .ofOption .ofStrings r.types),
      ("usages", .ofOption (.ofList UsageReport.toValue) r.usages)]
  | .function r =>
    [("name", .ofOption .string r.name), ("qualified_name", .ofOption .string r.qualifiedName),
      ("file_position", .ofOption Place.toValue r.place),
      ("visibility", .ofOption .string r.visibility),
      ("type", .ofOption .ofStrings r.types),
      ("usages", .ofOption (.ofList UsageReport.toValue) r.usages),
      ("documentation", .ofOption .string r.documentation),
      ("parameters", .ofStrings r.parameters), ("locals", .ofStrings r.locals)]
  | .classPreprocessed r =>
    [("name", .ofOption .string r.name), ("qualified_name", .ofOption .string r.qualifiedName),
      ("file_position", .ofOption Place.toValue r.place),
      ("visibility", .ofOption .string r.visibility)]
  | .classResolved r =>
    [("qualified_name", .ofOption .string r.qualifiedName),
      ("documentation", .ofOption .string r.documentation),
      ("base_classes", .ofOption .ofStrings r.bases),
      ("members", .ofOption MemberReports.toValue r.members),
      ("usages", .ofOption (.ofList UsageReport.toValue) r.usages)]
  | .import r =>
    [("importer", .ofOption .string r.importer),
      ("imported_modules", .ofOption (.ofList ModuleImport.toValue) r.modules),
      ("imported_symbols", .ofOption (.ofList SymbolImport.toValue) r.symbols)]

def Event.toValue (e : Event) : Value :=
  .object (("event", .string (Vocabulary.word e.kind)) :: e.members)

/-- The compact text of an event. -/
def Event.toText (e : Event) : String :=
  e.toValue.toText

end SymbolIndex
