import Mathlib.Data.List.Nodup
import SymbolIndex.Proofs.Sighting
import SymbolIndex.Proofs.SymbolTable
import SymbolIndex.Session.Ingest

/-!
# `Proofs.Session.Edges` — what names lead to

Names are looked up in the symbol table as it stands, so what a record makes of its names is a function
of that table. For each list of names that a record can hold there is the list of what it leads to, and
a lemma saying that every end of it is a name that the table knows.

## Contents
- `typeEdges`, `baseEdges`, `memberEdges`, `groupEdges`, `variableIds`, `documented`.
- `sightings`, `sightingsOf` and their like for usages.
- `importNode`, `importEdge`.
-/

namespace SymbolIndex.Session

variable {t : SymbolTable} {owner : Handle} {name : String} {names : List String} {id : EntityId}

/-- The identifiers that names resolve to are those that some name leads to. -/
theorem mem_resolvedOnce {find : String → Option Handle} :
    id ∈ resolvedOnce find names ↔ ∃ name ∈ names, ∃ h, find name = some h ∧ h.id = id := by
  unfold resolvedOnce
  rw [List.mem_eraseDups, List.mem_map]
  constructor
  · rintro ⟨h, hh, rfl⟩
    obtain ⟨name, hname, found⟩ := List.mem_filterMap.mp hh
    exact ⟨name, hname, h, found, rfl⟩
  · rintro ⟨name, hname, h, found, rfl⟩
    exact ⟨h, List.mem_filterMap.mpr ⟨name, hname, found⟩, rfl⟩

theorem nodup_eraseDups {α : Type} [BEq α] [LawfulBEq α] (as : List α) : as.eraseDups.Nodup := by
  match as with
  | [] => exact List.nodup_nil
  | a :: as =>
    rw [List.eraseDups_cons, List.nodup_cons]
    have shorter : (as.filter fun b => !b == a).length < as.length + 1 :=
      Nat.lt_add_one_of_le (List.length_filter_le _ as)
    exact ⟨by simp, nodup_eraseDups _⟩
termination_by as.length

/-- Each of them comes once, however many names lead to it. -/
theorem nodup_resolvedOnce (find : String → Option Handle) (names : List String) :
    (resolvedOnce find names).Nodup :=
  nodup_eraseDups _

/-! ## Types, bases, variables -/

/-- The types of a symbol, as far as their names resolve. -/
def typeEdges (t : SymbolTable) (symbol : EntityId) (names : List String) : List TypeAssociation :=
  (resolvedOnce t.lookup names).map (TypeAssociation.mk symbol)

/-- A type is what some name leads to, of whatever kind. -/
theorem mem_typeEdges {edge : TypeAssociation} (h : edge ∈ typeEdges t id names) :
    edge.symbol = id ∧ ∃ name h, t.lookup name = some h ∧ h.id = edge.type := by
  obtain ⟨type, htype, rfl⟩ := List.mem_map.mp h
  obtain ⟨name, _, h, found, same⟩ := mem_resolvedOnce.mp htype
  exact ⟨rfl, name, h, found, same⟩

/-- No type is bound twice by one record. -/
theorem nodup_typeEdges (t : SymbolTable) (id : EntityId) (names : List String) :
    (typeEdges t id names).Nodup := by
  refine List.Nodup.map ?_ (nodup_resolvedOnce t.lookup names)
  intro a b same
  exact congrArg TypeAssociation.type same

/-- The bases of a class, as far as their names resolve to classes. -/
def baseEdges (t : SymbolTable) (derived : EntityId) (names : List String) : List Inheritance :=
  (resolvedOnce t.lookupClass names).map (Inheritance.mk derived)

/-- A base is a class that some name leads to. -/
theorem mem_baseEdges {edge : Inheritance} (h : edge ∈ baseEdges t id names) :
    edge.derived = id ∧
      ∃ name h, t.lookup name = some h ∧ h.kind = .classType ∧ h.id = edge.base := by
  obtain ⟨base, hbase, rfl⟩ := List.mem_map.mp h
  obtain ⟨name, _, h, found, same⟩ := mem_resolvedOnce.mp hbase
  obtain ⟨known, isClass⟩ := SymbolTable.lookupKind_eq_some_iff.mp found
  exact ⟨rfl, name, h, known, isClass, same⟩

/-- No base is listed twice, though its name may be. -/
theorem nodup_baseEdges (t : SymbolTable) (id : EntityId) (names : List String) :
    (baseEdges t id names).Nodup := by
  refine List.Nodup.map ?_ (nodup_resolvedOnce t.lookupClass names)
  intro a b same
  exact congrArg Inheritance.base same

/-- The variables among some names. -/
def variableIds (t : SymbolTable) (names : List String) : List EntityId :=
  (names.filterMap t.lookupVariable).map Handle.id

/-- A parameter or local is a variable that some name leads to. -/
theorem mem_variableIds (hid : id ∈ variableIds t names) :
    ∃ name h, t.lookup name = some h ∧ h.kind = .variable ∧ h.id = id := by
  obtain ⟨h, hh, rfl⟩ := List.mem_map.mp hid
  obtain ⟨name, _, found⟩ := List.mem_filterMap.mp hh
  obtain ⟨known, isVariable⟩ := SymbolTable.lookupKind_eq_some_iff.mp found
  exact ⟨name, h, known, isVariable, rfl⟩

/-- The documentation that is kept of a text. -/
def documented (options : Options) (id : EntityId) (kind : DocumentationKind) (text : String) :
    List Documentation :=
  if options.skipDocumentation then [] else [⟨text, id, kind⟩]

/-- A text belongs to what it was given for. -/
theorem mem_documented {options : Options} {kind : DocumentationKind} {text : String}
    {doc : Documentation} (h : doc ∈ documented options id kind text) :
    doc.documented = id ∧ doc.kind = kind := by
  unfold documented at h
  split at h
  · cases h
  · rw [List.mem_singleton.mp h]
    exact ⟨rfl, rfl⟩

/-! ## Members and usages -/

/-- The usages of an entity that have a complete place. -/
def sightings (owner : Handle) (name : String) (usages : List UsageReport) : List Sighting :=
  usages.filterMap fun u => (Place.locate? u.place).map fun place => ⟨owner, name, place.1, place.2⟩

/-- The usages that are reported of a name, if the name resolves to an entity of the kind. -/
def sightingsOf (t : SymbolTable) (kind : EntityKind) (name : String) (usages : List UsageReport) :
    List Sighting :=
  match t.lookupKind kind name with
  | none => []
  | some owner => sightings owner name usages

/-- What is reported of an entity are the usages with a complete place. -/
theorem mem_sightings {owner : Handle} {name : String} {usages : List UsageReport} {x : Sighting} :
    x ∈ sightings owner name usages ↔ x.owner = owner ∧ x.name = name ∧
      ∃ u ∈ usages, Place.locate? u.place = some (x.path, x.location) := by
  unfold sightings
  rw [List.mem_filterMap]
  constructor
  · rintro ⟨u, hu, found⟩
    obtain ⟨place, located, rfl⟩ := Option.map_eq_some_iff.mp found
    exact ⟨rfl, rfl, u, hu, located⟩
  · rintro ⟨rfl, rfl, u, hu, located⟩
    exact ⟨u, hu, by rw [located]; rfl⟩

/-- What is reported of an entity is reported under a name that leads to it. -/
theorem mem_sightingsOf {t : SymbolTable} {kind : EntityKind} {name : String}
    {usages : List UsageReport} {x : Sighting} :
    x ∈ sightingsOf t kind name usages ↔ t.lookup x.name = some x.owner ∧ x.owner.kind = kind ∧
      x.name = name ∧ ∃ u ∈ usages, Place.locate? u.place = some (x.path, x.location) := by
  unfold sightingsOf
  constructor
  · intro hx
    cases found : t.lookupKind kind name with
    | none => rw [found] at hx; cases hx
    | some owner =>
      rw [found] at hx
      obtain ⟨rfl, rfl, placed⟩ := mem_sightings.mp hx
      obtain ⟨known, hkind⟩ := SymbolTable.lookupKind_eq_some_iff.mp found
      exact ⟨known, hkind, rfl, placed⟩
  · rintro ⟨known, hkind, rfl, placed⟩
    rw [SymbolTable.lookupKind_eq_some_iff.mpr ⟨known, hkind⟩]
    exact mem_sightings.mpr ⟨rfl, rfl, placed⟩

/-- The empty name leads to nothing of any kind. -/
theorem lookupKind_empty (t : SymbolTable) (kind : EntityKind) : t.lookupKind kind "" = none := by
  unfold SymbolTable.lookupKind SymbolTable.lookup
  rw [if_pos rfl]
  rfl

/-- The edges of a group of members, as far as their names resolve. -/
def memberEdges (t : SymbolTable) (owner : EntityId) (kind : MemberKind) (isStatic : Bool)
    (reports : List MemberReport) : List ClassMember :=
  reports.filterMap fun r => (t.lookupKind (memberEntity kind) r.qualifiedName).map fun member =>
    ⟨owner, member.id, member.node, kind, isStatic⟩

/-- The usages that are reported of the members of a group. -/
def memberSightings (t : SymbolTable) (kind : MemberKind) (reports : List MemberReport) :
    List Sighting :=
  reports.flatMap fun r => sightingsOf t (memberEntity kind) r.qualifiedName r.usages

/-- The edges of several groups of members. -/
def groupEdges (t : SymbolTable) (owner : EntityId)
    (groups : List (MemberKind × Bool × List MemberReport)) : List ClassMember :=
  groups.flatMap fun group => memberEdges t owner group.1 group.2.1 group.2.2

/-- The usages of several groups of members. -/
def groupSightings (t : SymbolTable) (groups : List (MemberKind × Bool × List MemberReport)) :
    List Sighting :=
  groups.flatMap fun group => memberSightings t group.1 group.2.2

/-- A member is an entity of the kind of its group, with the node of its declaration. -/
theorem mem_groupEdges {groups : List (MemberKind × Bool × List MemberReport)} {edge : ClassMember}
    (h : edge ∈ groupEdges t id groups) : edge.owner = id ∧
      ∃ name h, t.lookup name = some h ∧ h.kind = memberEntity edge.kind ∧ h.id = edge.member ∧
        h.node = edge.node := by
  obtain ⟨group, _, hedge⟩ := List.mem_flatMap.mp h
  obtain ⟨r, _, hr⟩ := List.mem_filterMap.mp hedge
  obtain ⟨member, found, rfl⟩ := Option.map_eq_some_iff.mp hr
  obtain ⟨known, hkind⟩ := SymbolTable.lookupKind_eq_some_iff.mp found
  exact ⟨rfl, _, member, known, hkind, rfl, rfl⟩

/-! ## Imports -/

/-- The node of an import: it is named for the symbol, or for the module if there is none. -/
def importNode (path : String) (symbol : Option String) (location : Location) : Node :=
  Node.declaration (symbol.getD path) .module location

/-- The edge of an import whose symbol may not resolve. -/
def importEdge (t : SymbolTable) (node : NodeId) (importer imported : FileId)
    (symbol : Option String) : Import :=
  ⟨node, importer, imported, (symbol.bind t.lookup).map Handle.id⟩

end SymbolIndex.Session
