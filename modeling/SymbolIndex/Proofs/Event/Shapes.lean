import SymbolIndex.Proofs.Json.Fields

/-!
# `Proofs.Event.Shapes` — which values stand for which events

For each record in an event, which values stand for it: a record with the known fields, each of which gives
what the record holds. Nothing is said about unknown members of an object, at any depth, so they may be
anything. The reader of a record takes exactly the values that stand for one (`ofValue?_iff`).

## Contents
- `Fits` for each record, with `ofValue?_iff`.
- `Event.Fits`; `ofContent?_iff`, `ofContent?_congr`.
-/

namespace SymbolIndex

open Json Json.Value

/-! ## Fields of several records -/

/-- Null is no record, so it stands for nothing that has fields. -/
theorem Json.Value.not_entries_null {names : List String} {entry : String → Entry} :
    ¬ Entries names .null entry := fun h => nomatch h.record

variable {v : Value} {e : Entry}

/-- A text that may be null or absent. -/
theorem Json.Entry.optional_text {s : Option String} :
    e.optional string? = some s ↔ e.IsOptional IsText s :=
  optional_iff string?_iff fun _ same => by cases same

/-- A list that may be null or absent, of elements whose reader is known to be exact. -/
theorem Json.Entry.optional_list {α : Type} {read : Value → Option α} {fits : Value → α → Prop}
    (h : ∀ v a, read v = some a ↔ fits v a) {as : Option (List α)} :
    e.optional (list? read) = some as ↔ e.IsOptional (IsList fits) as :=
  optional_iff (list?_iff h) fun _ ⟨_, same, _⟩ => by cases same

/-- A list that is empty where it is absent; null does not stand for it. -/
theorem Json.Entry.defaulted_list {α : Type} {read : Value → Option α} {fits : Value → α → Prop}
    (h : ∀ v a, read v = some a ↔ fits v a) {as : List α} :
    e.defaulted (list? read) [] = some as ↔ e.IsDefaulted (IsList fits) [] as :=
  defaulted_iff (list?_iff h)

/-! ## Records in events -/

/-- A position has two numbers of 32 bits, neither of which may be missing. -/
def Position.Fits (v : Value) (p : Position) : Prop :=
  ∃ entry, v.Entries ["line", "column"] entry ∧
    (entry "line").IsRequired IsWord32 p.line ∧ (entry "column").IsRequired IsWord32 p.column

theorem Position.not_fits_null (p : Position) : ¬ p.Fits .null :=
  fun ⟨_, h, _⟩ => not_entries_null h

/-- The reader of positions takes exactly what stands for one, and so do the readers below. -/
theorem Position.ofValue?_iff (v : Value) (p : Position) : Position.ofValue? v = some p ↔ p.Fits v := by
  obtain ⟨line, column⟩ := p
  unfold Position.ofValue? Position.Fits
  refine bind_entries (by decide) fun entry => ?_
  simp [Option.bind_eq_some_iff, Entry.required_iff word32?_iff]

/-- A range may lack either end. -/
def Extent.Fits (v : Value) (x : Extent) : Prop :=
  ∃ entry, v.Entries ["start_position", "end_position"] entry ∧
    (entry "start_position").IsOptional Position.Fits x.start ∧
    (entry "end_position").IsOptional Position.Fits x.stop

theorem Extent.not_fits_null (x : Extent) : ¬ x.Fits .null :=
  fun ⟨_, h, _⟩ => not_entries_null h

/-- Since null is no position, a field with null in it can only be a missing end. -/
theorem Extent.ofValue?_iff (v : Value) (x : Extent) : Extent.ofValue? v = some x ↔ x.Fits v := by
  have position {e : Entry} {p : Option Position} :
      e.optional Position.ofValue? = some p ↔ e.IsOptional Position.Fits p :=
    Entry.optional_iff Position.ofValue?_iff Position.not_fits_null
  obtain ⟨start, stop⟩ := x
  unfold Extent.ofValue? Extent.Fits
  refine bind_entries (by decide) fun entry => ?_
  simp [Option.bind_eq_some_iff, position]

/-- A place may lack its file and its range. -/
def Place.Fits (v : Value) (p : Place) : Prop :=
  ∃ entry, v.Entries ["file", "range"] entry ∧
    (entry "file").IsOptional IsText p.file ∧ (entry "range").IsOptional Extent.Fits p.extent

theorem Place.not_fits_null (p : Place) : ¬ p.Fits .null :=
  fun ⟨_, h, _⟩ => not_entries_null h

/-- A place is put together from a text and a range, each read exactly. -/
theorem Place.ofValue?_iff (v : Value) (p : Place) : Place.ofValue? v = some p ↔ p.Fits v := by
  have extent {e : Entry} {x : Option Extent} :
      e.optional Extent.ofValue? = some x ↔ e.IsOptional Extent.Fits x :=
    Entry.optional_iff Extent.ofValue?_iff Extent.not_fits_null
  obtain ⟨file, range⟩ := p
  unfold Place.ofValue? Place.Fits
  refine bind_entries (by decide) fun entry => ?_
  simp [Option.bind_eq_some_iff, Entry.optional_text, extent]

/-- Nearly every record has a place that may be missing. -/
theorem Place.optional_iff {p : Option Place} :
    e.optional Place.ofValue? = some p ↔ e.IsOptional Place.Fits p :=
  Entry.optional_iff Place.ofValue?_iff Place.not_fits_null

/-- A usage is nothing but a place. -/
def UsageReport.Fits (v : Value) (u : UsageReport) : Prop :=
  ∃ entry, v.Entries ["file_position"] entry ∧ (entry "file_position").IsOptional Place.Fits u.place

/-- A usage without a place is still one to the reader; sessions pass it over later. -/
theorem UsageReport.ofValue?_iff (v : Value) (u : UsageReport) :
    UsageReport.ofValue? v = some u ↔ u.Fits v := by
  obtain ⟨place⟩ := u
  unfold UsageReport.ofValue? UsageReport.Fits
  refine bind_entries (by decide) fun entry => ?_
  simp [Option.bind_eq_some_iff, Place.optional_iff]

/-- A member has a qualified name, empty by default, and usages, none by default. -/
def MemberReport.Fits (v : Value) (m : MemberReport) : Prop :=
  ∃ entry, v.Entries ["qualified_name", "usages"] entry ∧
    (entry "qualified_name").IsDefaulted IsText "" m.qualifiedName ∧
    (entry "usages").IsDefaulted (IsList UsageReport.Fits) [] m.usages

/-- A member is read exactly, its defaults included. -/
theorem MemberReport.ofValue?_iff (v : Value) (m : MemberReport) :
    MemberReport.ofValue? v = some m ↔ m.Fits v := by
  obtain ⟨name, usages⟩ := m
  unfold MemberReport.ofValue? MemberReport.Fits
  refine bind_entries (by decide) fun entry => ?_
  simp [Option.bind_eq_some_iff, Entry.defaulted_iff string?_iff,
    Entry.defaulted_list UsageReport.ofValue?_iff]

/-- The members of a class come in five groups, any of which may be absent. -/
def MemberReports.Fits (v : Value) (m : MemberReports) : Prop :=
  ∃ entry, v.Entries ["methods", "static_methods", "attributes", "static_attributes", "classes"] entry ∧
    (entry "methods").IsDefaulted (IsList MemberReport.Fits) [] m.methods ∧
    (entry "static_methods").IsDefaulted (IsList MemberReport.Fits) [] m.staticMethods ∧
    (entry "attributes").IsDefaulted (IsList MemberReport.Fits) [] m.attributes ∧
    (entry "static_attributes").IsDefaulted (IsList MemberReport.Fits) [] m.staticAttributes ∧
    (entry "classes").IsDefaulted (IsList MemberReport.Fits) [] m.classes

/-- Members that are null are missing as a whole, not empty. -/
theorem MemberReports.not_fits_null (m : MemberReports) : ¬ m.Fits .null :=
  fun ⟨_, h, _⟩ => not_entries_null h

theorem MemberReports.ofValue?_iff (v : Value) (m : MemberReports) :
    MemberReports.ofValue? v = some m ↔ m.Fits v := by
  obtain ⟨methods, staticMethods, attributes, staticAttributes, classes⟩ := m
  unfold MemberReports.ofValue? MemberReports.Fits
  refine bind_entries (by decide) fun entry => ?_
  simp [Option.bind_eq_some_iff, Entry.defaulted_list MemberReport.ofValue?_iff]

/-- An imported module has a path and a place, each of which may be missing. -/
def ModuleImport.Fits (v : Value) (i : ModuleImport) : Prop :=
  ∃ entry, v.Entries ["path", "file_position"] entry ∧
    (entry "path").IsOptional IsText i.path ∧ (entry "file_position").IsOptional Place.Fits i.place

theorem ModuleImport.ofValue?_iff (v : Value) (i : ModuleImport) :
    ModuleImport.ofValue? v = some i ↔ i.Fits v := by
  obtain ⟨path, place⟩ := i
  unfold ModuleImport.ofValue? ModuleImport.Fits
  refine bind_entries (by decide) fun entry => ?_
  simp [Option.bind_eq_some_iff, Entry.optional_text, Place.optional_iff]

/-- An imported symbol has the path of its module besides. -/
def SymbolImport.Fits (v : Value) (i : SymbolImport) : Prop :=
  ∃ entry, v.Entries ["path", "symbol", "file_position"] entry ∧
    (entry "path").IsOptional IsText i.path ∧ (entry "symbol").IsOptional IsText i.symbol ∧
    (entry "file_position").IsOptional Place.Fits i.place

theorem SymbolImport.ofValue?_iff (v : Value) (i : SymbolImport) :
    SymbolImport.ofValue? v = some i ↔ i.Fits v := by
  obtain ⟨path, symbol, place⟩ := i
  unfold SymbolImport.ofValue? SymbolImport.Fits
  refine bind_entries (by decide) fun entry => ?_
  simp [Option.bind_eq_some_iff, Entry.optional_text, Place.optional_iff]

/-! ## Events -/

/-- A record of a file has a path and a status of 64 bits with a sign. -/
def FileReport.Fits (v : Value) (r : FileReport) : Prop :=
  ∃ entry, v.Entries ["path", "parse_status"] entry ∧
    (entry "path").IsOptional IsText r.path ∧ (entry "parse_status").IsOptional IsSigned64 r.status

/-- Whether the status means anything is not asked here: any number of 64 bits is read. -/
theorem FileReport.ofValue?_iff (v : Value) (r : FileReport) :
    FileReport.ofValue? v = some r ↔ r.Fits v := by
  have status {e : Entry} {n : Option Int} :
      e.optional signed64? = some n ↔ e.IsOptional IsSigned64 n :=
    Entry.optional_iff signed64?_iff fun _ h => by cases h.1
  obtain ⟨path, code⟩ := r
  unfold FileReport.ofValue? FileReport.Fits
  refine bind_entries (by decide) fun entry => ?_
  simp [Option.bind_eq_some_iff, Entry.optional_text, status]

/-- Every field of a variable may be missing. -/
def VariableReport.Fits (v : Value) (r : VariableReport) : Prop :=
  ∃ entry, v.Entries ["name", "qualified_name", "file_position", "visibility", "type", "usages"] entry ∧
    (entry "name").IsOptional IsText r.name ∧
    (entry "qualified_name").IsOptional IsText r.qualifiedName ∧
    (entry "file_position").IsOptional Place.Fits r.place ∧
    (entry "visibility").IsOptional IsText r.visibility ∧
    (entry "type").IsOptional (IsList IsText) r.types ∧
    (entry "usages").IsOptional (IsList UsageReport.Fits) r.usages

theorem VariableReport.ofValue?_iff (v : Value) (r : VariableReport) :
    VariableReport.ofValue? v = some r ↔ r.Fits v := by
  obtain ⟨name, qualifiedName, place, visibility, types, usages⟩ := r
  unfold VariableReport.ofValue? VariableReport.Fits
  refine bind_entries (by decide) fun entry => ?_
  simp [Option.bind_eq_some_iff, Entry.optional_text, Place.optional_iff, strings?,
    Entry.optional_list string?_iff, Entry.optional_list UsageReport.ofValue?_iff]

/-- Every field of a function may be missing; parameters and locals are none by default. -/
def FunctionReport.Fits (v : Value) (r : FunctionReport) : Prop :=
  ∃ entry, v.Entries ["name", "qualified_name", "file_position", "visibility", "type", "usages",
      "documentation", "parameters", "locals"] entry ∧
    (entry "name").IsOptional IsText r.name ∧
    (entry "qualified_name").IsOptional IsText r.qualifiedName ∧
    (entry "file_position").IsOptional Place.Fits r.place ∧
    (entry "visibility").IsOptional IsText r.visibility ∧
    (entry "type").IsOptional (IsList IsText) r.types ∧
    (entry "usages").IsOptional (IsList UsageReport.Fits) r.usages ∧
    (entry "documentation").IsOptional IsText r.documentation ∧
    (entry "parameters").IsDefaulted (IsList IsText) [] r.parameters ∧
    (entry "locals").IsDefaulted (IsList IsText) [] r.locals

theorem FunctionReport.ofValue?_iff (v : Value) (r : FunctionReport) :
    FunctionReport.ofValue? v = some r ↔ r.Fits v := by
  obtain ⟨name, qualifiedName, place, visibility, types, usages, documentation, parameters, locals⟩ := r
  unfold FunctionReport.ofValue? FunctionReport.Fits
  refine bind_entries (by decide) fun entry => ?_
  simp [Option.bind_eq_some_iff, Entry.optional_text, Place.optional_iff, strings?,
    Entry.optional_list string?_iff, Entry.optional_list UsageReport.ofValue?_iff,
    Entry.defaulted_list string?_iff]

/-- A class as first seen has its name and place only. -/
def ClassReport.Fits (v : Value) (r : ClassReport) : Prop :=
  ∃ entry, v.Entries ["name", "qualified_name", "file_position", "visibility"] entry ∧
    (entry "name").IsOptional IsText r.name ∧
    (entry "qualified_name").IsOptional IsText r.qualifiedName ∧
    (entry "file_position").IsOptional Place.Fits r.place ∧
    (entry "visibility").IsOptional IsText r.visibility

theorem ClassReport.ofValue?_iff (v : Value) (r : ClassReport) :
    ClassReport.ofValue? v = some r ↔ r.Fits v := by
  obtain ⟨name, qualifiedName, place, visibility⟩ := r
  unfold ClassReport.ofValue? ClassReport.Fits
  refine bind_entries (by decide) fun entry => ?_
  simp [Option.bind_eq_some_iff, Entry.optional_text, Place.optional_iff]

/-- A completion has what is known of a class at last. It has no place, which is that of the class as first
seen. -/
def CompletionReport.Fits (v : Value) (r : CompletionReport) : Prop :=
  ∃ entry, v.Entries ["qualified_name", "documentation", "base_classes", "members", "usages"] entry ∧
    (entry "qualified_name").IsOptional IsText r.qualifiedName ∧
    (entry "documentation").IsOptional IsText r.documentation ∧
    (entry "base_classes").IsOptional (IsList IsText) r.bases ∧
    (entry "members").IsOptional MemberReports.Fits r.members ∧
    (entry "usages").IsOptional (IsList UsageReport.Fits) r.usages

/-- The members of a completion are one field, which is read group by group. -/
theorem CompletionReport.ofValue?_iff (v : Value) (r : CompletionReport) :
    CompletionReport.ofValue? v = some r ↔ r.Fits v := by
  have members {e : Entry} {m : Option MemberReports} :
      e.optional MemberReports.ofValue? = some m ↔ e.IsOptional MemberReports.Fits m :=
    Entry.optional_iff MemberReports.ofValue?_iff MemberReports.not_fits_null
  obtain ⟨qualifiedName, documentation, bases, members', usages⟩ := r
  unfold CompletionReport.ofValue? CompletionReport.Fits
  refine bind_entries (by decide) fun entry => ?_
  simp [Option.bind_eq_some_iff, Entry.optional_text, strings?, Entry.optional_list string?_iff, members,
    Entry.optional_list UsageReport.ofValue?_iff]

/-- A record of imports has the importing file and two lists. -/
def ImportReport.Fits (v : Value) (r : ImportReport) : Prop :=
  ∃ entry, v.Entries ["importer", "imported_modules", "imported_symbols"] entry ∧
    (entry "importer").IsOptional IsText r.importer ∧
    (entry "imported_modules").IsOptional (IsList ModuleImport.Fits) r.modules ∧
    (entry "imported_symbols").IsOptional (IsList SymbolImport.Fits) r.symbols

/-- Modules and symbols are read as lists of their own. -/
theorem ImportReport.ofValue?_iff (v : Value) (r : ImportReport) :
    ImportReport.ofValue? v = some r ↔ r.Fits v := by
  obtain ⟨importer, modules, symbols⟩ := r
  unfold ImportReport.ofValue? ImportReport.Fits
  refine bind_entries (by decide) fun entry => ?_
  simp [Option.bind_eq_some_iff, Entry.optional_text, Entry.optional_list ModuleImport.ofValue?_iff,
    Entry.optional_list SymbolImport.ofValue?_iff]

namespace Event

/-- The values that stand for the fields of an event. -/
def Fits (v : Value) : Event → Prop
  | file r => r.Fits v
  | «variable» r => r.Fits v
  | function r => r.Fits v
  | classPreprocessed r => r.Fits v
  | classResolved r => r.Fits v
  | «import» r => r.Fits v

/-- **The reader takes exactly the values that stand for an event of the kind.** -/
theorem ofContent?_iff {content : Value} {kind : EventKind} {e : Event} :
    ofContent? content kind = some e ↔ e.kind = kind ∧ e.Fits content := by
  cases kind <;>
    simp only [ofContent?, Option.map_eq_some_iff, FileReport.ofValue?_iff, VariableReport.ofValue?_iff,
      FunctionReport.ofValue?_iff, ClassReport.ofValue?_iff, CompletionReport.ofValue?_iff,
      ImportReport.ofValue?_iff] <;>
    cases e <;> simp [kind, Fits]

/-- No record in an event has a field named as the tag, so that two contents that agree on all other names
are the same event. -/
theorem ofContent?_congr {content content' : Value}
    (h : ∀ names : List String, "event" ∉ names → content.entries names = content'.entries names)
    (kind : EventKind) : ofContent? content kind = ofContent? content' kind := by
  cases kind <;>
    simp (disch := decide) only [ofContent?, FileReport.ofValue?, VariableReport.ofValue?,
      FunctionReport.ofValue?, ClassReport.ofValue?, CompletionReport.ofValue?, ImportReport.ofValue?, h]

end Event

end SymbolIndex
