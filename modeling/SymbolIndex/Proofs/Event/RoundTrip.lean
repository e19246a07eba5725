import SymbolIndex.Event.Print
import SymbolIndex.Proofs.Event.Objects
import SymbolIndex.Proofs.Json.RoundTrip

/-!
# `Proofs.Event.RoundTrip` — events read back

An event that is written as an object reads back as it was, provided that the status in a record of a file
is an integer of 64 bits; nothing else that a record can hold is lost or refused. Each record has two
lemmas: its value may be written (`writable_toValue`), and the fields are read back from it
(`ofValue?_toValue`). Both are put together from what is true of a field, and the fields of a record come
back because the reader asks for them under the names under which they are written (`entries_object`).

## Contents
- `entries_object`, `optional_ofOption`, `list?_ofList`: fields.
- `writable_toValue` and `ofValue?_toValue` for each record in an event.
- `Storable`; `ofContent?_members`, with one lemma for each kind; `ofText_toText`.
-/

namespace SymbolIndex

open Json

/-! ## Fields -/

namespace Json

variable {α : Type} {read : Value → Option α} {write : α → Value}

/-- **The fields of an object** are found if it has them and no others. -/
theorem Value.entries_object {names : List String} {ms : List (String × Value)}
    (keys : ms.map Prod.fst = names) (distinct : names.Nodup) :
    Value.entries names (.object ms) = some (ms.map fun m => .given m.2) := by
  subst keys
  have all : ((ms.map Prod.fst).filter fun k => (ms.map Prod.fst).contains k) = ms.map Prod.fst :=
    List.filter_eq_self.mpr fun k hk => List.contains_iff_mem.mpr hk
  have found : ∀ m ∈ ms, Value.member? m.1 ms = some m.2 := by
    induction ms with
    | nil => exact fun _ hm => nomatch hm
    | cons first ms ih =>
      rw [List.map_cons, List.nodup_cons] at distinct
      intro m hm
      rcases List.mem_cons.mp hm with rfl | later
      · exact if_pos rfl
      · have other : first.1 ≠ m.1 := fun same => distinct.1 (List.mem_map.mpr ⟨m, later, same.symm⟩)
        have rest := ih distinct.2
          (List.filter_eq_self.mpr fun k hk => List.contains_iff_mem.mpr hk) m later
        exact (if_neg other).trans rest
  rw [Value.entries, all, if_pos distinct, List.map_map]
  refine congrArg some (List.map_congr_left fun m hm => ?_)
  simp only [Function.comp_apply, found m hm, Option.map_some, Option.getD_some]

/-- A field that may be missing comes back, whether it is or not. -/
theorem Entry.optional_ofOption (a : Option α) (back : ∀ b ∈ a, read (write b) = some b)
    (there : ∀ b, write b ≠ .null) :
    Entry.optional read (.given (Value.ofOption write a)) = some a := by
  cases a with
  | none => rfl
  | some b =>
    have written := back b rfl
    have value := there b
    show Entry.optional read (.given (write b)) = some (some b)
    unfold Entry.optional
    split
    · rename_i same
      exact absurd (Entry.given.inj same) value
    · rename_i same
      cases Entry.given.inj same
      rw [written]
      rfl
    · rename_i same; cases same
    · rename_i same; cases same

/-- A list comes back if each of its elements does. -/
theorem Value.list?_ofList (as : List α) (back : ∀ a, read (write a) = some a) :
    Value.list? read (.ofList write as) = some as := by
  show (as.map write).mapM read = some as
  induction as with
  | nil => rfl
  | cons a as ih =>
    rw [List.map_cons, List.mapM_cons, back a, ih]
    rfl

/-- A list of texts comes back as it was written. -/
theorem Value.strings?_ofStrings (names : List String) : Value.strings? (.ofStrings names) = some names :=
  Value.list?_ofList names fun _ => rfl

/-- A number of 32 bits is written as an integer, and is in range when it is read. -/
theorem Value.word32?_toNat (n : UInt32) : Value.word32? (.integer n.toNat) = some n := by
  have range : (0 : Int) ≤ n.toNat ∧ (n.toNat : Int) < 0x100000000 := by
    have := n.toNat_lt
    omega
  unfold Value.word32? Value.integer?
  simp only [range, and_self, if_true, Option.map_some, Int.toNat_natCast, UInt32.ofNat_toNat]

/-- A whole number comes back if it fits into 64 bits with a sign. -/
theorem Value.signed64?_integer {n : Int} (range : -0x8000000000000000 ≤ n ∧ n < 0x8000000000000000) :
    Value.signed64? (.integer n) = some n :=
  if_pos range

/-- What may be missing is null or nested as deep as what is there. -/
theorem Writable.ofOption {depth : Nat} {a : Option α} (h : ∀ b ∈ a, Writable depth (write b)) :
    Writable depth (Value.ofOption write a) := by
  cases a with
  | none => exact .null
  | some b => exact h b rfl

/-- A list adds one level to the depth of its elements. -/
theorem Writable.ofList {depth : Nat} {as : List α} (h : ∀ a ∈ as, Writable depth (write a)) :
    Writable (depth + 1) (Value.ofList write as) := by
  refine .array fun v hv => ?_
  obtain ⟨a, ha, rfl⟩ := List.mem_map.mp hv
  exact h a ha

theorem Writable.ofStrings {depth : Nat} (names : List String) :
    Writable (depth + 1) (Value.ofStrings names) :=
  .ofList fun name _ => .string name

end Json

/-! ## Records -/

/-- The values of the fields are kept abstract here, so that nothing computes with their integers. -/
theorem Position.ofValue?_of_entries {p : Position} {content line column : Value}
    (fields : content.entries ["line", "column"] = some [.given line, .given column])
    (hline : line.word32? = some p.line) (hcolumn : column.word32? = some p.column) :
    Position.ofValue? content = some p := by
  unfold Position.ofValue?
  simp only [fields, Entry.required, hline, hcolumn, Option.bind_eq_bind, Option.bind_some]

/-- A position reads back. -/
theorem Position.ofValue?_toValue (p : Position) : Position.ofValue? p.toValue = some p :=
  Position.ofValue?_of_entries (Value.entries_object rfl (by decide)) (Value.word32?_toNat p.line)
    (Value.word32?_toNat p.column)

/-- A position is an object of two numbers, which is one level. -/
theorem Position.writable_toValue (p : Position) (depth : Nat) : Writable (depth + 1) p.toValue := by
  have word : ∀ n : UInt32, IsWord n.toNat := by
    intro n
    have := n.toNat_lt
    unfold IsWord
    omega
  refine .object ?_
  simp only [List.mem_cons, List.not_mem_nil, or_false, forall_eq_or_imp, forall_eq]
  exact ⟨.integer (word _), .integer (word _)⟩

/-- A range reads back, with or without its ends. -/
theorem Extent.ofValue?_toValue (e : Extent) : Extent.ofValue? e.toValue = some e := by
  have fields : Value.entries ["start_position", "end_position"] e.toValue =
      some [.given (.ofOption Position.toValue e.start), .given (.ofOption Position.toValue e.stop)] :=
    Value.entries_object rfl (by decide)
  have position (p : Option Position) :
      Entry.optional Position.ofValue? (.given (.ofOption Position.toValue p)) = some p :=
    Entry.optional_ofOption p (fun q _ => q.ofValue?_toValue) fun _ => nofun
  unfold Extent.ofValue?
  simp only [fields, position, Option.bind_eq_bind, Option.bind_some]

/-- A range holds positions one level further down. -/
theorem Extent.writable_toValue (e : Extent) (depth : Nat) : Writable (depth + 2) e.toValue := by
  refine .object ?_
  simp only [List.mem_cons, List.not_mem_nil, or_false, forall_eq_or_imp, forall_eq]
  exact ⟨.ofOption fun p _ => p.writable_toValue depth, .ofOption fun p _ => p.writable_toValue depth⟩

/-- A text that may be missing comes back. -/
theorem Json.Entry.optional_string (s : Option String) :
    Entry.optional Value.string? (.given (.ofOption .string s)) = some s :=
  Entry.optional_ofOption s (fun _ _ => rfl) fun _ => nofun

theorem Json.Writable.optional_string {depth : Nat} (s : Option String) :
    Writable depth (.ofOption .string s) :=
  .ofOption fun s _ => .string s

/-- A place reads back, whatever is missing of it. -/
theorem Place.ofValue?_toValue (p : Place) : Place.ofValue? p.toValue = some p := by
  have fields : Value.entries ["file", "range"] p.toValue =
      some [.given (.ofOption .string p.file), .given (.ofOption Extent.toValue p.extent)] :=
    Value.entries_object rfl (by decide)
  have extent : Entry.optional Extent.ofValue? (.given (.ofOption Extent.toValue p.extent)) =
      some p.extent := Entry.optional_ofOption _ (fun e _ => e.ofValue?_toValue) fun _ => nofun
  unfold Place.ofValue?
  simp only [fields, Entry.optional_string, extent, Option.bind_eq_bind, Option.bind_some]

/-- A place is three levels deep, and so on with the records below: each adds its own. -/
theorem Place.writable_toValue (p : Place) (depth : Nat) : Writable (depth + 3) p.toValue := by
  refine .object ?_
  simp only [List.mem_cons, List.not_mem_nil, or_false, forall_eq_or_imp, forall_eq]
  exact ⟨.optional_string _, .ofOption fun e _ => e.writable_toValue depth⟩

/-- A place that may be missing comes back, present or not. -/
theorem Place.optional_toValue (p : Option Place) :
    Entry.optional Place.ofValue? (.given (.ofOption Place.toValue p)) = some p :=
  Entry.optional_ofOption p (fun q _ => q.ofValue?_toValue) fun _ => nofun

/-- A usage reads back. -/
theorem UsageReport.ofValue?_toValue (u : UsageReport) : UsageReport.ofValue? u.toValue = some u := by
  have fields : Value.entries ["file_position"] u.toValue =
      some [.given (.ofOption Place.toValue u.place)] := Value.entries_object rfl (by decide)
  unfold UsageReport.ofValue?
  simp only [fields, Place.optional_toValue, Option.bind_eq_bind, Option.bind_some]

theorem UsageReport.writable_toValue (u : UsageReport) (depth : Nat) :
    Writable (depth + 4) u.toValue := by
  refine .object ?_
  simp only [List.mem_cons, List.not_mem_nil, or_false, forall_eq]
  exact .ofOption fun p _ => p.writable_toValue depth

theorem UsageReport.list_toValue (us : List UsageReport) :
    Value.list? UsageReport.ofValue? (.ofList UsageReport.toValue us) = some us :=
  Value.list?_ofList us UsageReport.ofValue?_toValue

/-- A list of usages that may be missing comes back; a missing one is not taken for an empty one. -/
theorem UsageReport.optional_toValue (us : Option (List UsageReport)) :
    Entry.optional (Value.list? UsageReport.ofValue?)
      (.given (.ofOption (.ofList UsageReport.toValue) us)) = some us :=
  Entry.optional_ofOption us (fun us _ => list_toValue us) fun _ => nofun

/-- A member reads back, by its qualified name and its usages. -/
theorem MemberReport.ofValue?_toValue (m : MemberReport) : MemberReport.ofValue? m.toValue = some m := by
  have fields : Value.entries ["qualified_name", "usages"] m.toValue =
      some [.given (.string m.qualifiedName), .given (.ofList UsageReport.toValue m.usages)] :=
    Value.entries_object rfl (by decide)
  unfold MemberReport.ofValue?
  simp only [fields, Entry.defaulted, Value.string?, UsageReport.list_toValue, Option.bind_eq_bind,
    Option.bind_some]

theorem MemberReport.writable_toValue (m : MemberReport) (depth : Nat) :
    Writable (depth + 6) m.toValue := by
  refine .object ?_
  simp only [List.mem_cons, List.not_mem_nil, or_false, forall_eq_or_imp, forall_eq]
  exact ⟨.string _, .ofList fun u _ => u.writable_toValue depth⟩

/-- Members read back group by group, so a method is not taken for a class. -/
theorem MemberReports.ofValue?_toValue (m : MemberReports) : MemberReports.ofValue? m.toValue = some m := by
  have fields : Value.entries ["methods", "static_methods", "attributes", "static_attributes", "classes"]
      m.toValue = some [.given (.ofList MemberReport.toValue m.methods),
        .given (.ofList MemberReport.toValue m.staticMethods),
        .given (.ofList MemberReport.toValue m.attributes),
        .given (.ofList MemberReport.toValue m.staticAttributes),
        .given (.ofList MemberReport.toValue m.classes)] := Value.entries_object rfl (by decide)
  have group (ms : List MemberReport) :
      Value.list? MemberReport.ofValue? (.ofList MemberReport.toValue ms) = some ms :=
    Value.list?_ofList ms MemberReport.ofValue?_toValue
  unfold MemberReports.ofValue?
  simp only [fields, Entry.defaulted, group, Option.bind_eq_bind, Option.bind_some]

theorem MemberReports.writable_toValue (m : MemberReports) (depth : Nat) :
    Writable (depth + 8) m.toValue := by
  have group (ms : List MemberReport) : Writable (depth + 7) (.ofList MemberReport.toValue ms) :=
    .ofList fun m _ => m.writable_toValue depth
  refine .object ?_
  simp only [List.mem_cons, List.not_mem_nil, or_false, forall_eq_or_imp, forall_eq]
  exact ⟨group _, group _, group _, group _, group _⟩

/-- An imported module reads back. -/
theorem ModuleImport.ofValue?_toValue (i : ModuleImport) : ModuleImport.ofValue? i.toValue = some i := by
  have fields : Value.entries ["path", "file_position"] i.toValue =
      some [.given (.ofOption .string i.path), .given (.ofOption Place.toValue i.place)] :=
    Value.entries_object rfl (by decide)
  unfold ModuleImport.ofValue?
  simp only [fields, Entry.optional_string, Place.optional_toValue, Option.bind_eq_bind, Option.bind_some]

theorem ModuleImport.writable_toValue (i : ModuleImport) (depth : Nat) :
    Writable (depth + 4) i.toValue := by
  refine .object ?_
  simp only [List.mem_cons, List.not_mem_nil, or_false, forall_eq_or_imp, forall_eq]
  exact ⟨.optional_string _, .ofOption fun p _ => p.writable_toValue depth⟩

/-- An imported symbol reads back. -/
theorem SymbolImport.ofValue?_toValue (i : SymbolImport) : SymbolImport.ofValue? i.toValue = some i := by
  have fields : Value.entries ["path", "symbol", "file_position"] i.toValue =
      some [.given (.ofOption .string i.path), .given (.ofOption .string i.symbol),
        .given (.ofOption Place.toValue i.place)] := Value.entries_object rfl (by decide)
  unfold SymbolImport.ofValue?
  simp only [fields, Entry.optional_string, Place.optional_toValue, Option.bind_eq_bind, Option.bind_some]

theorem SymbolImport.writable_toValue (i : SymbolImport) (depth : Nat) :
    Writable (depth + 4) i.toValue := by
  refine .object ?_
  simp only [List.mem_cons, List.not_mem_nil, or_false, forall_eq_or_imp, forall_eq]
  exact ⟨.optional_string _, .optional_string _, .ofOption fun p _ => p.writable_toValue depth⟩

/-! ## Events -/

namespace Event

variable {e : Event}

/-- A status is an integer of 64 bits, if the event has one. -/
def Storable : Event → Prop
  | .file r => ∀ n ∈ r.status, -0x8000000000000000 ≤ n ∧ n < 0x8000000000000000
  | _ => True

instance : DecidablePred Storable
  | .file r => inferInstanceAs
      (Decidable (∀ n ∈ r.status, -0x8000000000000000 ≤ n ∧ n < 0x8000000000000000))
  | .variable _ | .function _ | .classPreprocessed _ | .classResolved _ | .import _ => .isTrue trivial

theorem optional_strings (names : Option (List String)) :
    Entry.optional Value.strings? (.given (.ofOption .ofStrings names)) = some names :=
  Entry.optional_ofOption names (fun names _ => Value.strings?_ofStrings names) fun _ => nofun

/-- A record of a file reads back if its status fits into the number that is read. -/
theorem ofValue?_file (r : FileReport) (h : (file r).Storable) :
    FileReport.ofValue? (.object (Event.file r).members) = some r := by
  have fields : Value.entries ["path", "parse_status"] (.object (file r).members) =
      some [.given (.ofOption .string r.path), .given (.ofOption .integer r.status)] :=
    Value.entries_object rfl (by decide)
  have status : Entry.optional Value.signed64? (.given (.ofOption .integer r.status)) = some r.status :=
    Entry.optional_ofOption r.status (fun n hn => Value.signed64?_integer (h n hn)) fun _ => nofun
  unfold FileReport.ofValue?
  simp only [fields, Entry.optional_string, status, Option.bind_eq_bind, Option.bind_some]

/-- A record of a variable reads back, as the others do whatever they hold. -/
theorem ofValue?_variable (r : VariableReport) :
    VariableReport.ofValue? (.object (Event.variable r).members) = some r := by
  have fields : Value.entries ["name", "qualified_name", "file_position", "visibility", "type", "usages"]
      (.object (Event.variable r).members) = some [.given (.ofOption .string r.name),
        .given (.ofOption .string r.qualifiedName), .given (.ofOption Place.toValue r.place),
        .given (.ofOption .string r.visibility), .given (.ofOption .ofStrings r.types),
        .given (.ofOption (.ofList UsageReport.toValue) r.usages)] := Value.entries_object rfl (by decide)
  unfold VariableReport.ofValue?
  simp only [fields, Entry.optional_string, Place.optional_toValue, optional_strings,
    UsageReport.optional_toValue, Option.bind_eq_bind, Option.bind_some]

/-- A function reads back with its parameters and its locals, in their order. -/
theorem ofValue?_function (r : FunctionReport) :
    FunctionReport.ofValue? (.object (Event.function r).members) = some r := by
  have fields : Value.entries ["name", "qualified_name", "file_position", "visibility", "type", "usages",
        "documentation", "parameters", "locals"]
      (.object (function r).members) = some [.given (.ofOption .string r.name),
        .given (.ofOption .string r.qualifiedName), .given (.ofOption Place.toValue r.place),
        .given (.ofOption .string r.visibility), .given (.ofOption .ofStrings r.types),
        .given (.ofOption (.ofList UsageReport.toValue) r.usages),
        .given (.ofOption .string r.documentation), .given (.ofStrings r.parameters),
        .given (.ofStrings r.locals)] := Value.entries_object rfl (by decide)
  unfold FunctionReport.ofValue?
  simp only [fields, Entry.optional_string, Entry.defaulted, Place.optional_toValue, optional_strings,
    Value.strings?_ofStrings, UsageReport.optional_toValue, Option.bind_eq_bind, Option.bind_some]

theorem ofValue?_classPreprocessed (r : ClassReport) :
    ClassReport.ofValue? (.object (Event.classPreprocessed r).members) = some r := by
  have fields : Value.entries ["name", "qualified_name", "file_position", "visibility"]
      (.object (classPreprocessed r).members) = some [.given (.ofOption .string r.name),
        .given (.ofOption .string r.qualifiedName), .given (.ofOption Place.toValue r.place),
        .given (.ofOption .string r.visibility)] := Value.entries_object rfl (by decide)
  unfold ClassReport.ofValue?
  simp only [fields, Entry.optional_string, Place.optional_toValue, Option.bind_eq_bind, Option.bind_some]

/-- A completion reads back with its bases, its members and its documentation. -/
theorem ofValue?_classResolved (r : CompletionReport) :
    CompletionReport.ofValue? (.object (Event.classResolved r).members) = some r := by
  have fields : Value.entries ["qualified_name", "documentation", "base_classes", "members", "usages"]
      (.object (classResolved r).members) = some [.given (.ofOption .string r.qualifiedName),
        .given (.ofOption .string r.documentation), .given (.ofOption .ofStrings r.bases),
        .given (.ofOption MemberReports.toValue r.members),
        .given (.ofOption (.ofList UsageReport.toValue) r.usages)] := Value.entries_object rfl (by decide)
  have members : Entry.optional MemberReports.ofValue?
      (.given (.ofOption MemberReports.toValue r.members)) = some r.members :=
    Entry.optional_ofOption _ (fun m _ => m.ofValue?_toValue) fun _ => nofun
  unfold CompletionReport.ofValue?
  simp only [fields, Entry.optional_string, optional_strings, members, UsageReport.optional_toValue,
    Option.bind_eq_bind, Option.bind_some]

/-- A record of imports reads back with its modules and its symbols apart. -/
theorem ofValue?_import (r : ImportReport) :
    ImportReport.ofValue? (.object (Event.import r).members) = some r := by
  have fields : Value.entries ["importer", "imported_modules", "imported_symbols"]
      (.object (Event.import r).members) = some [.given (.ofOption .string r.importer),
        .given (.ofOption (.ofList ModuleImport.toValue) r.modules),
        .given (.ofOption (.ofList SymbolImport.toValue) r.symbols)] := Value.entries_object rfl (by decide)
  have modules : Entry.optional (Value.list? ModuleImport.ofValue?)
      (.given (.ofOption (.ofList ModuleImport.toValue) r.modules)) = some r.modules :=
    Entry.optional_ofOption _ (fun is _ => Value.list?_ofList is ModuleImport.ofValue?_toValue)
      fun _ => nofun
  have symbols : Entry.optional (Value.list? SymbolImport.ofValue?)
      (.given (.ofOption (.ofList SymbolImport.toValue) r.symbols)) = some r.symbols :=
    Entry.optional_ofOption _ (fun is _ => Value.list?_ofList is SymbolImport.ofValue?_toValue)
      fun _ => nofun
  unfold ImportReport.ofValue?
  simp only [fields, Entry.optional_string, modules, symbols, Option.bind_eq_bind, Option.bind_some]

/-- **The members of an event are read back as the event.** -/
theorem ofContent?_members (h : e.Storable) : ofContent? (.object e.members) e.kind = some e := by
  cases e with
  | file r => exact congrArg (Option.map Event.file) (ofValue?_file r h)
  | «variable» r => exact congrArg (Option.map Event.variable) (ofValue?_variable r)
  | function r => exact congrArg (Option.map Event.function) (ofValue?_function r)
  | classPreprocessed r =>
    exact congrArg (Option.map Event.classPreprocessed) (ofValue?_classPreprocessed r)
  | classResolved r => exact congrArg (Option.map Event.classResolved) (ofValue?_classResolved r)
  | «import» r => exact congrArg (Option.map Event.import) (ofValue?_import r)

/-- The values in an event are nested no deeper than the reader goes. -/
theorem writable_members (h : e.Storable) : ∀ m ∈ e.members, Writable (maxDepth - 1) m.2 := by
  have place (p : Option Place) : Writable 126 (.ofOption Place.toValue p) :=
    .ofOption fun p _ => p.writable_toValue 123
  have strings (names : Option (List String)) : Writable 126 (.ofOption .ofStrings names) :=
    .ofOption fun names _ => .ofStrings names
  have usages (us : Option (List UsageReport)) :
      Writable 126 (.ofOption (.ofList UsageReport.toValue) us) :=
    .ofOption fun us _ => .ofList fun u _ => u.writable_toValue 121
  show ∀ m ∈ e.members, Writable 126 m.2
  cases e with
  | file r =>
    simp only [members, List.mem_cons, List.not_mem_nil, or_false, forall_eq_or_imp, forall_eq]
    refine ⟨.optional_string _, .ofOption fun n hn => .integer ?_⟩
    have range := h n hn
    exact ⟨range.1, by omega⟩
  | «variable» r =>
    simp only [members, List.mem_cons, List.not_mem_nil, or_false, forall_eq_or_imp, forall_eq]
    exact ⟨.optional_string _, .optional_string _, place _, .optional_string _, strings _, usages _⟩
  | function r =>
    simp only [members, List.mem_cons, List.not_mem_nil, or_false, forall_eq_or_imp, forall_eq]
    exact ⟨.optional_string _, .optional_string _, place _, .optional_string _, strings _, usages _,
      .optional_string _, .ofStrings _, .ofStrings _⟩
  | classPreprocessed r =>
    simp only [members, List.mem_cons, List.not_mem_nil, or_false, forall_eq_or_imp, forall_eq]
    exact ⟨.optional_string _, .optional_string _, place _, .optional_string _⟩
  | classResolved r =>
    simp only [members, List.mem_cons, List.not_mem_nil, or_false, forall_eq_or_imp, forall_eq]
    exact ⟨.optional_string _, .optional_string _, strings _, .ofOption fun m _ => m.writable_toValue 118,
      usages _⟩
  | «import» r =>
    simp only [members, List.mem_cons, List.not_mem_nil, or_false, forall_eq_or_imp, forall_eq]
    exact ⟨.optional_string _, .ofOption fun is _ => .ofList fun i _ => i.writable_toValue 121,
      .ofOption fun is _ => .ofList fun i _ => i.writable_toValue 121⟩

/-- An event is nested no deeper than the reader goes. -/
theorem writable_toValue (h : e.Storable) : Writable maxDepth e.toValue := by
  show Writable (maxDepth - 1 + 1) e.toValue
  refine .object fun m hm => ?_
  rcases List.mem_cons.mp hm with rfl | field
  · exact .string _
  · exact writable_members h m field

/-- No field has the name of the tag. -/
theorem name_ne_tag (e : Event) : ∀ m ∈ e.members, m.1 ≠ "event" := by
  cases e <;>
    simp only [members, List.mem_cons, List.not_mem_nil, or_false, forall_eq_or_imp, forall_eq] <;> decide

/-- **An event reads back.** -/
theorem ofText_toText (h : e.Storable) : ofText e.toText = .ok e := by
  have spelled : Spells (fun n => n.overflows = false) maxDepth e.toValue e.toText.toList := by
    unfold toText Value.toText
    rw [String.toList_ofList]
    exact (writable_toValue h).spells
  have rest : tags e.members = [] ∧ fields e.members = e.members :=
    ⟨List.filter_eq_nil_iff.mpr fun m hm => by simpa using name_ne_tag e m hm,
      List.filter_eq_self.mpr fun m hm => by simpa using name_ne_tag e m hm⟩
  have own : ("event", Value.string (Vocabulary.word e.kind)).1 = "event" := rfl
  obtain ⟨tag, others⟩ := tags_cons_tag own e.members
  rw [rest.1] at tag
  rw [rest.2] at others
  refine (ofText_iff (fun _ finite => finite) spelled).mpr (ofMembers?_eq_some_iff.mpr ⟨tag, ?_⟩)
  rw [← ofContent?_fields, others, ofContent?_members h]

end Event

end SymbolIndex
