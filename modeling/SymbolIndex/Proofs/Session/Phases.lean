import SymbolIndex.Proofs.Session.Coherence
import SymbolIndex.Proofs.Session.Contribution
import SymbolIndex.Proofs.Session.Usages

/-!
# `Proofs.Session.Phases` — a class comes in two records

A class is declared by one record and completed by another, and what makes it a class, its bases, its
members, its documentation and its own usages, comes with the second. So the records of a class that a run
takes in are its declaration and then at most one completion, and a class has either nothing of a class or
all that this one completion brought it (`Phase`).

The proof follows the run with the list of what has been taken in, each event with the session that it met.
An event concerns the class of its name alone: a declaration meets a name that no earlier record is about,
and a completion meets a class whose only record is its declaration. That identifiers stand for names,
`Apart`, keeps the edges of one class from counting for another.

## Contents
- `acceptances`: the events that are taken in, with the sessions that they met; `recordsOf`.
- `Graph.ofClass`: what a graph holds of a class as a class.
- `Phase`; `Phased`, kept by each step and by a run.
- `Documents`: how many texts of documentation there are.
- `classes_come_in_two_phases`.
-/

namespace SymbolIndex

open Session

/-! ## What a graph holds of a class -/

namespace Graph

variable {g h : Graph} {id : EntityId}

/-- What a graph holds of a class as a class: its bases, its members and its documentation. -/
def ofClass (g : Graph) (id : EntityId) : Graph where
  inheritance := g.inheritance.filter fun e => e.derived = id
  members := g.members.filter fun m => m.owner = id
  documentation := g.documentation.filter fun d => d.documented = id ∧ d.kind = .classType

/-- Edges of a class are appended buffer by buffer. -/
theorem ofClass_append (g h : Graph) (id : EntityId) :
    (g ++ h).ofClass id = g.ofClass id ++ h.ofClass id := by
  simp only [ofClass, append_def, append, List.filter_append, List.append_nil]

/-- Appending edges of other classes changes nothing. -/
theorem ofClass_append_of_empty (none : h.ofClass id = {}) (g : Graph) :
    (g ++ h).ofClass id = g.ofClass id := by
  rw [ofClass_append, none, append_empty]

/-- A graph without members, bases and documentation of classes. -/
theorem ofClass_eq_empty (inheritance : g.inheritance = []) (members : g.members = [])
    (documentation : ∀ d ∈ g.documentation, d.kind = .function) (id : EntityId) : g.ofClass id = {} := by
  have texts : (g.documentation.filter fun d => d.documented = id ∧ d.kind = .classType) = [] := by
    rw [List.filter_eq_nil_iff]
    intro d hd isClass
    rw [documentation d hd] at isClass
    simp at isClass
  simp only [ofClass, inheritance, members, texts, List.filter_nil]

end Graph

namespace Session

variable {σ : Type} {s s' : Session σ} {name : String} {h : Handle}

/-- A declaration buffers nothing that belongs to a class as a class. -/
theorem ofClass_declared (nodes : List Node) (d : Declared) (options : Options) (t : SymbolTable)
    (id : EntityId) : (({ nodes } : Graph) ++ d.buffered options t).ofClass id = {} := by
  refine Graph.ofClass_eq_empty ?_ ?_ ?_ id
  · rw [Graph.inheritance_append, Declared.inheritance_buffered]
    rfl
  · show [] ++ (d.buffered options t).members = []
    unfold Declared.buffered
    cases d.declaration.kind <;> rfl
  · intro text htext
    rw [Graph.documentation_append, Declared.documentation_buffered, List.nil_append] at htext
    split at htext
    · exact (mem_documented htext).2
    · cases htext

/-- A completion buffers nothing but edges of its class. -/
theorem ofClass_completed (c : Completed) (options : Options) (t : SymbolTable) (owner id : EntityId) :
    (c.buffered options t owner).ofClass id = if owner = id then c.buffered options t owner else {} := by
  have bases : ∀ e ∈ baseEdges t owner c.bases, e.derived = owner := fun e he => (mem_baseEdges he).1
  have members : ∀ m ∈ groupEdges t owner (memberGroups c.members), m.owner = owner :=
    fun m hm => (mem_groupEdges hm).1
  have texts : ∀ d ∈ documented options owner .classType c.documentation,
      d.documented = owner ∧ d.kind = .classType := fun d hd => mem_documented hd
  unfold Completed.buffered Graph.ofClass
  split
  · rename_i same
    subst same
    rw [List.filter_eq_self.mpr fun e he => decide_eq_true (bases e he),
      List.filter_eq_self.mpr fun m hm => decide_eq_true (members m hm),
      List.filter_eq_self.mpr fun d hd => decide_eq_true (texts d hd)]
  · rename_i other
    rw [List.filter_eq_nil_iff.mpr fun e he same => other ((bases e he) ▸ of_decide_eq_true same),
      List.filter_eq_nil_iff.mpr fun m hm same => other ((members m hm) ▸ of_decide_eq_true same),
      List.filter_eq_nil_iff.mpr fun d hd same => other ((texts d hd).1 ▸ (of_decide_eq_true same).1)]

/-- What a completion buffers depends on what names lead to, and not on the states of classes. -/
theorem Completed.buffered_congr {t t' : SymbolTable} (same : t'.entries = t.entries) (c : Completed)
    (options : Options) (owner : EntityId) : c.buffered options t' owner = c.buffered options t owner := by
  have kinds := SymbolTable.lookupKind_congr same
  unfold Completed.buffered groupEdges memberEdges baseEdges SymbolTable.lookupClass
  rw [kinds]

/-! ## What a run takes in -/

/-- An event that was taken in, with the session that it met. -/
abbrev Acceptance (σ : Type) := Session σ × Event

/-- The events of a run that are taken in, each with the session that it meets. -/
def acceptances [Recorder σ] (s : Session σ) : List Event → List (Acceptance σ)
  | [] => []
  | e :: events =>
    if s.refuses e then (s.ingest e).acceptances events else (s, e) :: (s.ingest e).acceptances events

/-- The records about a name. -/
def recordsOf (name : String) (as : List (Acceptance σ)) : List (Acceptance σ) :=
  as.filter fun a => ownName? a.2 = some name

/-- The usages that the records of a class report of itself. -/
def ownSightings (h : Handle) (name : String) (as : List (Acceptance σ)) : List Sighting :=
  (recordsOf name as).flatMap fun a => match a.2 with
    | .classResolved r => sightings h name (r.usages.getD [])
    | _ => []

/-- The usages that completions report of the members of their classes. -/
def memberReports [Recorder σ] (as : List (Acceptance σ)) : List Sighting :=
  as.flatMap fun a => match a.2 with
    | .classResolved r => groupSightings (a.1.ingest a.2).symbols (memberGroups (r.members.getD {}))
    | _ => []

variable {as : List (Acceptance σ)} {a : Acceptance σ} {e : Event}

/-- Records of a name are found in what was taken in first, and then in the rest. -/
theorem recordsOf_append (name : String) (as bs : List (Acceptance σ)) :
    recordsOf name (as ++ bs) = recordsOf name as ++ recordsOf name bs :=
  List.filter_append ..

theorem recordsOf_singleton (own : ownName? e = some name) (met : Session σ) :
    recordsOf name [(met, e)] = [(met, e)] := by
  unfold recordsOf
  rw [List.filter_cons_of_pos (by simpa using own), List.filter_nil]

/-- A record about something else adds nothing to the records about a name. -/
theorem recordsOf_append_other (other : ownName? e ≠ some name) (met : Session σ) :
    recordsOf name (as ++ [(met, e)]) = recordsOf name as := by
  unfold recordsOf
  rw [List.filter_append, List.filter_cons_of_neg (by simpa using other), List.filter_nil, List.append_nil]

/-- Whatever a run reports was reported by an event that it took in. -/
theorem mem_reportedAmong [Recorder σ] {events : List Event} {x : Sighting}
    (hx : x ∈ s.reportedAmong events) :
    ∃ a ∈ s.acceptances events, x ∈ reported (a.1.ingest a.2).symbols a.2 := by
  induction events generalizing s with
  | nil => cases hx
  | cons e events ih =>
    unfold reportedAmong reportsOf at hx
    rw [acceptances]
    by_cases refused : s.refuses e = true
    · rw [if_pos refused, List.nil_append] at hx
      rw [if_pos refused]
      exact ih hx
    · rw [if_neg refused] at hx
      rw [if_neg refused]
      rcases List.mem_append.mp hx with now | later
      · exact ⟨_, List.mem_cons_self, now⟩
      · obtain ⟨a, ha, reported⟩ := ih later
        exact ⟨a, List.mem_cons_of_mem _ ha, reported⟩

/-- A usage of a class is reported by the completion of the class, or by that of a class that has it as a
member. -/
theorem sighting_of_class [Recorder σ] {x : Sighting} (ha : a ∈ as)
    (hx : x ∈ reported (a.1.ingest a.2).symbols a.2) (isClass : x.owner.kind = .classType) :
    x ∈ ownSightings x.owner x.name as ++ memberReports as := by
  obtain ⟨met, e⟩ := a
  obtain ⟨⟨kind, name, usages⟩, hr, seen⟩ := List.mem_flatMap.mp hx
  obtain ⟨found, hkind, rfl, u, hu, located⟩ := mem_sightingsOf.mp seen
  have named : x.name ≠ "" := (SymbolTable.lookup_eq_some_iff.mp found).1
  cases e with
  | classResolved r =>
    rcases List.mem_cons.mp hr with own | ofMember
    · have about : r.qualifiedName = some x.name := by
        have name : x.name = r.qualifiedName.getD "" := congrArg (·.2.1) own
        cases given : r.qualifiedName with
        | none => exact absurd (by rw [name, given]; rfl) named
        | some _ => rw [name, given]; rfl
      have usages : usages = r.usages.getD [] := congrArg (·.2.2) own
      refine List.mem_append_left _ (List.mem_flatMap.mpr ⟨(met, .classResolved r), ?_, ?_⟩)
      · exact List.mem_filter.mpr ⟨ha, decide_eq_true about⟩
      · exact mem_sightings.mpr ⟨rfl, rfl, u, usages ▸ hu, located⟩
    · obtain ⟨group, hgroup, hm⟩ := List.mem_flatMap.mp ofMember
      obtain ⟨m, hm, same⟩ := List.mem_map.mp hm
      refine List.mem_append_right _ (List.mem_flatMap.mpr ⟨_, ha, ?_⟩)
      refine List.mem_flatMap.mpr ⟨group, hgroup, List.mem_flatMap.mpr ⟨m, hm, ?_⟩⟩
      rw [← same] at seen
      exact seen
  | «variable» r =>
    rw [List.mem_singleton.mp hr] at hkind
    cases hkind.symm.trans isClass
  | function r =>
    rw [List.mem_singleton.mp hr] at hkind
    cases hkind.symm.trans isClass
  | file r => cases hr
  | classPreprocessed r => cases hr
  | «import» r => cases hr

/-! ## The phase of a class -/

/-- How far a class has come: the records about it that were taken in, its state, and what there is of it
as a class. -/
inductive Phase (s : Session σ) (name : String) (h : Handle) (as : List (Acceptance σ)) : Prop
  /-- The class has been declared and has nothing of a class yet. -/
  | preprocessed {met : Session σ} {r : ClassReport}
    (records : recordsOf name as = [(met, .classPreprocessed r)])
    (state : s.symbols.classState name = .preprocessed)
    (edges : s.graph.ofClass h.id = {})
  /-- After its declaration the class has been completed once, and that record brought all there is. -/
  | resolved {met met' : Session σ} {r : ClassReport} {r' : CompletionReport} {c : Completed}
    (records : recordsOf name as = [(met, .classPreprocessed r), (met', .classResolved r')])
    (complete : completed? r' = some c)
    (state : s.symbols.classState name = .resolved)
    (edges : s.graph.ofClass h.id = c.buffered s.options met'.symbols h.id)

/-- The phase of a class depends on its records, its state and its edges only. -/
theorem Phase.congr {bs : List (Acceptance σ)} (phase : Phase s name h as)
    (records : recordsOf name bs = recordsOf name as)
    (state : s'.symbols.classState name = s.symbols.classState name) (options : s'.options = s.options)
    (edges : s'.graph.ofClass h.id = s.graph.ofClass h.id) : Phase s' name h bs := by
  cases phase with
  | preprocessed r s e =>
    exact .preprocessed (records.trans r) (state.trans s) (edges.trans e)
  | resolved r c s e =>
    refine .resolved (records.trans r) c (state.trans s) (edges.trans ?_)
    rw [options]
    exact e

/-- A class that is not completed has reported no usages of itself. -/
theorem Phase.ownSightings_eq_nil (phase : Phase s name h as)
    (state : s.symbols.classState name = .preprocessed) : ownSightings h name as = [] := by
  cases phase with
  | preprocessed records _ _ =>
    unfold ownSightings
    rw [records]
    rfl
  | resolved _ _ resolved _ => cases state.symm.trans resolved

/-- Every known class is in one of the phases, whatever was taken in is about a known name, and no
identifier has edges of a class before a name leads to it. -/
structure Phased (s : Session σ) (as : List (Acceptance σ)) : Prop where
  classes : ∀ name h, s.symbols.lookupClass name = some h → Phase s name h as
  known : ∀ a ∈ as, ∀ name, ownName? a.2 = some name → ∃ h, s.symbols.lookup name = some h
  /-- A record of a class leads to a class. -/
  kinds : ∀ a ∈ as, a.2.kind = .classPreprocessed ∨ a.2.kind = .classResolved →
    ∃ name h, ownName? a.2 = some name ∧ s.symbols.lookupClass name = some h
  unowned : ∀ id, ¬ s.Registered id → s.graph.ofClass id = {}

namespace Phased

/-- At the start no class is known and nothing has been taken in. -/
theorem begin (store : σ) (options : Options) : Phased (begin store options) [] where
  classes _ _ found :=
    nomatch (SymbolTable.lookup_eq_some_iff.mp (SymbolTable.lookupKind_eq_some_iff.mp found).1).2
  known _ ha := nomatch ha
  kinds _ ha := nomatch ha
  unowned _ _ := rfl

/-- Work that leaves the symbol table alone and adds nothing to a class. -/
theorem undisturbed (phased : Phased s as) (symbols : s'.symbols = s.symbols)
    (options : s'.options = s.options) (edges : ∀ id, s'.graph.ofClass id = s.graph.ofClass id) :
    Phased s' as where
  classes name h found := by
    rw [symbols] at found
    exact (phased.classes name h found).congr rfl (by rw [symbols]) options (edges h.id)
  known a ha name own := symbols ▸ phased.known a ha name own
  kinds a ha kind := symbols ▸ phased.kinds a ha kind
  unowned id free := by
    unfold Registered at free
    rw [symbols] at free
    exact (edges id).trans (phased.unowned id free)

/-- Work that adds nothing to any class keeps every phase. -/
theorem effect {paths : List String} {xs : List Sighting} {g : Graph} (phased : Phased s as)
    (done : Effect s s' paths xs g) (none : ∀ id, g.ofClass id = {}) : Phased s' as :=
  phased.undisturbed done.symbols done.options fun id =>
    done.graph ▸ Graph.ofClass_append_of_empty (none id) s.graph

theorem quiet (phased : Phased s as) (done : Effect s s' [] [] {}) : Phased s' as :=
  phased.effect done fun _ => rfl

/-- An event about no name is taken in. -/
theorem nameless (phased : Phased s as) (own : ownName? e = none) (kind : e.kind.isOfEntity = false)
    (met : Session σ) : Phased s (as ++ [(met, e)]) where
  classes name h found := by
    refine (phased.classes name h found).congr (recordsOf_append_other ?_ met) rfl rfl rfl
    rw [own]
    exact nofun
  known a ha name about := by
    rcases List.mem_append.mp ha with old | new
    · exact phased.known a old name about
    · rw [List.mem_singleton.mp new, own] at about
      cases about
  kinds a ha isClass := by
    rcases List.mem_append.mp ha with old | new
    · exact phased.kinds a old isClass
    · rw [List.mem_singleton.mp new] at isClass
      rcases isClass with same | same <;> rw [same] at kind <;> cases kind
  unowned := phased.unowned

/-- A class is declared by one kind of event. -/
theorem eq_classPreprocessed {d : Declared} (hd : declared? e = some d)
    (isClass : d.declaration.kind = .classType) : ∃ r, e = .classPreprocessed r := by
  cases e with
  | «variable» r =>
    simp only [declared?, Option.bind_eq_bind, Option.bind_eq_some_iff, Option.some.injEq] at hd
    obtain ⟨_, _, _, _, _, _, _, _, _, _, rfl⟩ := hd
    cases isClass
  | function r =>
    simp only [declared?, Option.bind_eq_bind, Option.bind_eq_some_iff, Option.some.injEq] at hd
    obtain ⟨_, _, _, _, _, _, _, _, _, _, _, _, rfl⟩ := hd
    cases isClass
  | classPreprocessed r => exact ⟨r, rfl⟩
  | file r => cases hd
  | classResolved r => cases hd
  | «import» r => cases hd

/-- What is declared as a class is one. -/
theorem kind_of_classPreprocessed {d : Declared} (hd : declared? e = some d)
    (isClass : e.kind = .classPreprocessed ∨ e.kind = .classResolved) :
    d.declaration.kind = .classType := by
  cases e with
  | classPreprocessed r =>
    simp only [declared?, Option.bind_eq_bind, Option.bind_eq_some_iff, Option.some.injEq] at hd
    obtain ⟨_, _, _, _, _, _, rfl⟩ := hd
    rfl
  | classResolved r => cases hd
  | _ => rcases isClass with same | same <;> cases same

/-- What is known of the names of a session, when one more is known of it. -/
theorem step (phased : Phased s as) {met : Session σ} {own : String}
    (about : ownName? e = some own) (led : ∃ h, s'.symbols.lookup own = some h)
    (isClass : e.kind = .classPreprocessed ∨ e.kind = .classResolved →
      ∃ h, s'.symbols.lookupClass own = some h)
    (lookups : ∀ name h, s.symbols.lookup name = some h → s'.symbols.lookup name = some h)
    (classes : ∀ name h, s'.symbols.lookupClass name = some h → Phase s' name h (as ++ [(met, e)]))
    (unowned : ∀ id, ¬ s'.Registered id → s'.graph.ofClass id = {}) :
    Phased s' (as ++ [(met, e)]) where
  classes := classes
  known a ha name own' := by
    rcases List.mem_append.mp ha with old | new
    · exact (phased.known a old name own').imp fun h found => lookups name h found
    · rw [List.mem_singleton.mp new, about] at own'
      exact Option.some.inj own' ▸ led
  kinds a ha kind := by
    rcases List.mem_append.mp ha with old | new
    · obtain ⟨name, h, own', found⟩ := phased.kinds a old kind
      obtain ⟨known, hkind⟩ := SymbolTable.lookupKind_eq_some_iff.mp found
      exact ⟨name, h, own', SymbolTable.lookupKind_eq_some_iff.mpr ⟨lookups name h known, hkind⟩⟩
    · rw [List.mem_singleton.mp new] at kind ⊢
      exact ⟨own, (isClass kind).elim fun h found => ⟨h, about, found⟩⟩
  unowned := unowned

/-- A declaration opens the phase of its class, if it declares one, and keeps the others: its name is new,
so no record was about it. -/
theorem declared {d : Declared} {t : SymbolTable} {paths : List String} {xs : List Sighting}
    (phased : Phased s as) (hd : declared? e = some d)
    (ok : s.symbols.register d.declaration.entity = .ok t)
    (done : Effect (s.enter d.declaration t) s' paths xs (d.buffered s.options t))
    (new : ¬ s.Registered d.declaration.entity.id) (met : Session σ) : Phased s' (as ++ [(met, e)]) := by
  have symbols : s'.symbols = t := done.symbols
  have own := ownName?_declared hd
  have free : s.symbols.lookup d.declaration.qualifiedName = none := (SymbolTable.register_eq_ok.mp ok).2.1
  have led : s'.symbols.lookup d.declaration.qualifiedName = some d.declaration.entity.handle :=
    symbols ▸ SymbolTable.lookup_self_of_register ok
  have edges : ∀ id, s'.graph.ofClass id = s.graph.ofClass id := by
    intro id
    rw [graph_declared done]
    exact Graph.ofClass_append_of_empty (ofClass_declared _ d s.options t id) s.graph
  have lookups : ∀ name h, s.symbols.lookup name = some h → s'.symbols.lookup name = some h :=
    fun name h found => symbols ▸ SymbolTable.lookup_register_of_lookup ok found
  refine phased.step own ⟨_, led⟩ ?_ lookups ?_ ?_
  · intro kind
    exact ⟨_, SymbolTable.lookupKind_eq_some_iff.mpr ⟨led, kind_of_classPreprocessed hd kind⟩⟩
  · intro name h found
    obtain ⟨known, isClass⟩ := SymbolTable.lookupKind_eq_some_iff.mp found
    rcases SymbolTable.lookup_of_lookup_register ok (symbols ▸ known) with ⟨rfl, rfl⟩ | old
    · -- the class is new, so nothing that was taken in before is about it
      obtain ⟨r, rfl⟩ := eq_classPreprocessed hd isClass
      have before : recordsOf d.declaration.qualifiedName as = [] := by
        refine List.filter_eq_nil_iff.mpr fun a ha about => ?_
        obtain ⟨h, there⟩ := phased.known a ha _ (of_decide_eq_true about)
        rw [free] at there
        cases there
      have records : recordsOf d.declaration.qualifiedName (as ++ [(met, .classPreprocessed r)]) =
          [(met, .classPreprocessed r)] := by
        rw [recordsOf_append, before, recordsOf_singleton own]
        rfl
      refine .preprocessed records ?_ ((edges _).trans (phased.unowned _ new))
      · refine SymbolTable.classState_eq_preprocessed_iff.mpr ⟨_, found, ?_⟩
        rw [symbols, SymbolTable.states_of_register ok]
        exact if_pos ⟨isClass, rfl⟩
    · have before : s.symbols.lookupClass name = some h :=
        SymbolTable.lookupKind_eq_some_iff.mpr ⟨old, isClass⟩
      have other : ownName? e ≠ some name := by
        intro same
        rw [Option.some.inj (own.symm.trans same), old] at free
        cases free
      refine (phased.classes name h before).congr (recordsOf_append_other other met) ?_ done.options
        (edges h.id)
      unfold SymbolTable.classState
      rw [found, before]
      show ((s'.symbols.states.find? h.id).getD .unseen) = (s.symbols.states.find? h.id).getD .unseen
      rw [symbols, SymbolTable.states_of_register ok, if_neg]
      rintro ⟨_, same⟩
      exact new ⟨name, h, old, same⟩
  · intro id unknown
    rw [edges]
    exact phased.unowned id fun ⟨name, h, found, same⟩ => unknown ⟨name, h, lookups name h found, same⟩

/-- A completion moves its class from the first phase to the second, and no other class. -/
theorem completed {r : CompletionReport} {c : Completed} {owner : Handle} {t : SymbolTable}
    {paths : List String} {xs : List Sighting} {met : Session σ} (phased : Phased s as)
    (hc : completed? r = some c) (ok : s.symbols.resolveClass c.name = .ok (owner, t))
    (done : Effect { s with symbols := t } s' paths xs (c.buffered s.options t owner.id))
    (same : met.symbols = s.symbols)
    (only : ∀ name h, s.symbols.lookup name = some h → owner.id = h.id → name = c.name) :
    Phased s' (as ++ [(met, .classResolved r)]) := by
  have symbols : s'.symbols = t := done.symbols
  have entries := SymbolTable.entries_of_resolveClass ok
  have names : s'.symbols.lookup = s.symbols.lookup := by
    rw [symbols, SymbolTable.lookup_congr entries]
  have kinds : s'.symbols.lookupClass = s.symbols.lookupClass := by
    unfold SymbolTable.lookupClass
    rw [symbols, SymbolTable.lookupKind_congr entries]
  obtain ⟨found, preprocessed, _⟩ := SymbolTable.resolveClass_eq_ok.mp ok
  have known := (SymbolTable.lookupKind_eq_some_iff.mp found).1
  have own := (names_completed hc).1
  have edges : ∀ id, s'.graph.ofClass id =
      s.graph.ofClass id ++ if owner.id = id then c.buffered s.options t owner.id else {} := by
    intro id
    rw [done.graph, Graph.ofClass_append, ofClass_completed]
  refine phased.step own ⟨owner, names ▸ known⟩ (fun _ => ⟨owner, kinds ▸ found⟩) (fun _ _ there => names ▸ there)
    ?_ ?_
  · intro name h found'
    rw [kinds] at found'
    have states : s'.symbols.classState name =
        ((if h.id = owner.id then some .resolved else s.symbols.states.find? h.id).getD .unseen) := by
      unfold SymbolTable.classState
      rw [kinds, found', symbols, ← SymbolTable.states_of_resolveClass ok]
      rfl
    by_cases about : name = c.name
    · -- the class is preprocessed, so its declaration is the only record of it
      subst about
      obtain rfl : owner = h := Option.some.inj (found.symm.trans found')
      rw [if_pos rfl] at states
      cases phased.classes c.name owner found with
      | @preprocessed met' r' records state none =>
        have both : recordsOf c.name (as ++ [(met, .classResolved r)]) =
            [(met', .classPreprocessed r'), (met, .classResolved r)] := by
          rw [recordsOf_append, records, recordsOf_singleton own]
          rfl
        refine .resolved both hc states ?_
        · rw [edges, none, if_pos rfl, done.options, same, Completed.buffered_congr entries]
          rfl
      | resolved _ _ state _ =>
        have before := SymbolTable.classState_eq_preprocessed_iff.mpr ⟨owner, found, preprocessed⟩
        cases before.symm.trans state
    · have other : owner.id ≠ h.id := fun sameId =>
        about (only name h (SymbolTable.lookupKind_eq_some_iff.mp found').1 sameId)
      have otherName : ownName? (.classResolved r) ≠ some name := fun same =>
        about (Option.some.inj (own.symm.trans same)).symm
      refine (phased.classes name h found').congr (recordsOf_append_other otherName met) ?_ done.options ?_
      · rw [states, if_neg (Ne.symm other)]
        unfold SymbolTable.classState
        rw [found']
        rfl
      · rw [edges, if_neg other, Graph.append_empty]
  · intro id unknown
    unfold Registered at unknown
    rw [names] at unknown
    rw [edges, if_neg fun sameId => unknown ⟨c.name, owner, known, sameId⟩, Graph.append_empty]
    exact phased.unowned id unknown

variable [Recorder σ] {ids : List Identity}

/-- Each event that is accepted keeps the phases, where identifiers tell names apart. -/
theorem accepted {met : Session σ} (phased : Phased s as) (within : Within (· ∈ ids) s)
    (apart : Apart .entity ids) (ok : Accepted s s' e) (hp : ∀ i ∈ identities e, i ∈ ids)
    (same : met.symbols = s.symbols) : Phased s' (as ++ [(met, e)]) := by
  cases ok with
  | @committed r path code told store hpath quiet ok done =>
    have announced : Phased s' as := by
      refine (phased.quiet quiet).undisturbed ?_ ?_ fun id => ?_ <;> rw [done] <;> rfl
    exact announced.nameless rfl rfl met
  | @declared _ d t hd ok done =>
    have named : .entity d.declaration.kind d.declaration.qualifiedName ∈ ids :=
      hp _ (mem_identities_declared hd (List.mem_cons_of_mem _ List.mem_cons_self))
    have free := (SymbolTable.register_eq_ok.mp ok).2.1
    exact phased.declared hd ok done (not_registered within apart named free) met
  | @completed r c owner t hc ok done =>
    have known := (SymbolTable.lookupKind_eq_some_iff.mp (SymbolTable.resolveClass_eq_ok.mp ok).1).1
    refine phased.completed hc ok done same fun name h found sameId => ?_
    exact ((owner_id_eq_iff within apart known found).mp sameId.symm).1
  | @imported r path importer found done =>
    have imported : Phased s' as := by
      rw [done]
      refine imports_induction (P := (Phased · as)) phased (fun _ _ phased quiet => phased.quiet quiet) ?_
      intro entry _ _ _ phased ⟨_, _, _, _, added⟩
      exact phased.effect added fun _ => rfl
    exact imported.nameless rfl rfl met

/-- One event extends what has been taken in by itself, unless it is refused. -/
theorem ingest (phased : Phased s as) (within : Within (· ∈ ids) s) (apart : Apart .entity ids)
    (hp : ∀ i ∈ identities e, i ∈ ids) :
    Phased (s.ingest e) (as ++ if s.refuses e then [] else [(s, e)]) := by
  rcases ingest_cases s e with ⟨refused, quiet⟩ | ⟨taken, ok⟩
  · rw [if_pos refused, List.append_nil]
    exact phased.quiet quiet
  · rw [if_neg (by rw [taken]; decide)]
    have counted := effect_counted s e
    exact (phased.quiet counted).accepted (within.quiet counted) apart ok hp rfl

/-- **So does a run.** Beside it goes the list of the events that it has taken in, each with the session
that it met. -/
theorem run (phased : Phased s as) (within : Within (· ∈ ids) s) (apart : Apart .entity ids)
    {events : List Event} (hp : ∀ i ∈ events.flatMap identities, i ∈ ids) :
    Phased (s.run events) (as ++ s.acceptances events) := by
  induction events generalizing s as with
  | nil =>
    show Phased s (as ++ [])
    rwa [List.append_nil]
  | cons e events ih =>
    have own : ∀ i ∈ identities e, i ∈ ids := fun i hi => hp i (List.mem_append_left _ hi)
    have more : ∀ i ∈ events.flatMap identities, i ∈ ids := fun i hi => hp i (List.mem_append_right _ hi)
    have split : s.acceptances (e :: events) =
        (if s.refuses e then [] else [(s, e)]) ++ (s.ingest e).acceptances events := by
      rw [acceptances]
      split <;> rfl
    show Phased ((s.ingest e).run events) _
    rw [split, ← List.append_assoc]
    exact ih (phased.ingest within apart own) (Within.invariant.ingest within own) more

end Phased

/-! ## How much documentation there is -/

/-- Unless documentation is left out, each function has one text and so has each completed class. -/
def Documents (s : Session σ) : Prop :=
  s.graph.documentation.length = if s.options.skipDocumentation then 0 else
    s.graph.functions.length +
      s.graph.classes.countP fun c => s.symbols.states.find? c.entity.id = some .resolved

/-- A text is one record, or none where documentation is left out. -/
theorem length_documented (options : Options) (id : EntityId) (kind : DocumentationKind) (text : String) :
    (documented options id kind text).length = if options.skipDocumentation then 0 else 1 := by
  unfold documented
  split <;> rfl

namespace Documents

theorem begin (store : σ) (options : Options) : Documents (begin store options) := by
  unfold Documents
  split <;> rfl

/-- Work on anything but functions, classes and documentation. -/
theorem effect {paths : List String} {xs : List Sighting} {g : Graph} (h : Documents s)
    (done : Effect s s' paths xs g) (documentation : g.documentation = []) (functions : g.functions = [])
    (classes : g.classes = []) : Documents s' := by
  unfold Documents
  rw [done.graph, done.options, done.symbols]
  simp only [Graph.append_def, Graph.append, documentation, functions, classes, List.append_nil]
  exact h

/-- A declaration brings a text with a function, and a class that is not completed yet. -/
theorem declared {d : Declared} {t : SymbolTable} {paths : List String} {xs : List Sighting}
    (h : Documents s) (unique : Unique s) (ok : s.symbols.register d.declaration.entity = .ok t)
    (done : Effect (s.enter d.declaration t) s' paths xs (d.buffered s.options t))
    (new : ¬ s.Registered d.declaration.entity.id) : Documents s' := by
  have options : s'.options = s.options := done.options
  have symbols : s'.symbols = t := done.symbols
  -- the classes from before are registered, so their states stay
  have before : s.graph.classes.countP (fun c => t.states.find? c.entity.id = some .resolved) =
      s.graph.classes.countP fun c => s.symbols.states.find? c.entity.id = some .resolved := by
    refine List.countP_congr fun c hc => ?_
    have known := (unique.entities .classType c.entity (List.mem_map.mpr ⟨c, hc, rfl⟩)).2
    rw [SymbolTable.states_of_register ok, if_neg]
    rintro ⟨_, same⟩
    exact new ⟨_, _, known, same⟩
  unfold Documents at h ⊢
  rw [graph_declared done, options, symbols]
  unfold Declared.buffered
  cases kind : d.declaration.kind with
  | «variable» =>
    simp only [Graph.append_def, Graph.append, List.append_nil, before]
    exact h
  | function =>
    simp only [Graph.append_def, Graph.append, List.append_nil, List.nil_append, List.length_append,
      length_documented, List.length_singleton, before, h]
    split <;> omega
  | classType =>
    have fresh : ¬ t.states.find? d.declaration.entity.id = some .resolved := by
      rw [SymbolTable.states_of_register ok, if_pos ⟨kind, rfl⟩]
      intro same
      cases same
    simp only [Graph.append_def, Graph.append, List.append_nil, List.nil_append, List.countP_append,
      before, List.countP_singleton, decide_eq_true_eq, if_neg fresh, Nat.add_zero]
    exact h

/-- A completion brings one text, and one more class is completed. -/
theorem completed {c : Completed} {owner : Handle} {t : SymbolTable} {paths : List String}
    {xs : List Sighting} (h : Documents s) (distinct : ((s.graph.entities .classType).map Entity.id).Nodup)
    (there : s.graph.Has .classType owner.id) (ok : s.symbols.resolveClass c.name = .ok (owner, t))
    (done : Effect { s with symbols := t } s' paths xs (c.buffered s.options t owner.id)) :
    Documents s' := by
  have options : s'.options = s.options := done.options
  have symbols : s'.symbols = t := done.symbols
  have preprocessed := (SymbolTable.resolveClass_eq_ok.mp ok).2.1
  have ids : (s.graph.entities .classType).map Entity.id = s.graph.classes.map fun c => c.entity.id :=
    List.map_map
  have once : s.graph.classes.countP (fun c => t.states.find? c.entity.id = some .resolved) =
      s.graph.classes.countP (fun c => s.symbols.states.find? c.entity.id = some .resolved) + 1 := by
    unfold Graph.Has at there
    rw [ids] at distinct there
    refine countP_add_one distinct there ?_ ?_
    · intro c _ same
      rw [SymbolTable.states_of_resolveClass ok, if_pos same, same, preprocessed]
      decide
    · intro c _ other
      rw [SymbolTable.states_of_resolveClass ok, if_neg other]
  unfold Documents at h ⊢
  rw [done.graph, options, symbols]
  simp only [Graph.append_def, Graph.append, Completed.buffered, List.append_nil, List.length_append,
    length_documented, once, h]
  split <;> omega

variable [Recorder σ] {ids : List Identity}

/-- Each accepted event keeps the number of texts in step with functions and completed classes. -/
theorem accepted (h : Documents s) (within : Within (· ∈ ids) s) (apart : Apart .entity ids)
    (unique : Unique s) (coherent : Coherent s.graph s) (ok : Accepted s s' e)
    (hp : ∀ i ∈ identities e, i ∈ ids) : Documents s' := by
  cases ok with
  | @committed r path code told store hpath quiet ok done =>
    have told : Documents told := h.effect quiet rfl rfl rfl
    rw [done]
    exact told
  | @declared _ d t hd ok done =>
    have named : .entity d.declaration.kind d.declaration.qualifiedName ∈ ids :=
      hp _ (mem_identities_declared hd (List.mem_cons_of_mem _ List.mem_cons_self))
    have free := (SymbolTable.register_eq_ok.mp ok).2.1
    exact h.declared unique ok done (not_registered within apart named free)
  | @completed r c owner t hc ok done =>
    obtain ⟨known, isClass⟩ := SymbolTable.lookupKind_eq_some_iff.mp
      (SymbolTable.resolveClass_eq_ok.mp ok).1
    have there := (coherent.linked c.name owner known).1
    rw [isClass] at there
    exact h.completed (unique.nodup_id within apart .classType) there ok done
  | @imported r path importer found done =>
    rw [done]
    refine imports_induction h (fun _ _ h quiet => h.effect quiet rfl rfl rfl) ?_
    intro entry _ _ _ h ⟨_, _, _, _, added⟩
    exact h.effect added rfl rfl rfl

theorem invariant (apart : Apart .entity ids) : Invariant (fun e => ∀ i ∈ identities e, i ∈ ids)
    fun s : Session σ => (Within (· ∈ ids) s ∧ Unique s) ∧ Coherent s.graph s ∧ Documents s where
  quiet h done := ⟨(Unique.invariant apart).quiet h.1 done, h.2.1.undisturbed done,
    h.2.2.effect done rfl rfl rfl⟩
  accepted h hp ok := ⟨(Unique.invariant apart).accepted h.1 hp ok, h.2.1.accepted ok,
    h.2.2.accepted h.1.1 apart h.1.2 h.2.1 ok hp⟩

/-- After a run the number of texts is still in step with functions and completed classes. -/
theorem run (apart : Apart .entity ids) (store : σ) (options : Options) {events : List Event}
    (hp : ∀ i ∈ events.flatMap identities, i ∈ ids) : Documents ((Session.begin store options).run events) :=
  ((invariant apart).run ⟨⟨Within.begin store options, Unique.begin store options⟩,
    Coherent.begin store options, begin store options⟩ fun e he i hi =>
      hp i (List.mem_flatMap.mpr ⟨e, he, hi⟩)).2.2

end Documents

/-- A session keeps its options. -/
theorem invariant_options [Recorder σ] (options : Options) :
    Invariant (fun _ => True) fun s : Session σ => s.options = options := by
  refine ⟨fun h done => done.options.trans h, ?_⟩
  intro s s' e h _ ok
  cases ok with
  | committed hp quiet ok done =>
    rw [done]
    exact quiet.options.trans h
  | declared hd ok done => exact done.options.trans h
  | completed hc ok done => exact done.options.trans h
  | imported found done =>
    rw [done]
    exact imports_induction h (fun _ _ h quiet => quiet.options.trans h)
      fun _ _ _ _ h ⟨_, _, _, _, added⟩ => added.options.trans h

/-! ## The discipline -/

variable [Recorder σ]

/-- **A class comes in two records.** If the entities that the events of a run name have distinct
identifiers, then the records of a known class that the run has taken in are its declaration and at most
one completion after it. What is buffered of the class as a class is what the completion brings, and
nothing before; its usages are those that its completion reports and those that a class reports which has
it as a member. A record of a class is taken in for no other name. So no base, no type and no
documentation is buffered twice, and there is one text for each function and each completed class. -/
theorem classes_come_in_two_phases (store : σ) (options : Options) (events : List Event)
    (apart : Apart .entity (events.flatMap identities)) :
    let s := (begin store options).run events
    let history := (begin store options).acceptances events
    (∀ name h, s.symbols.lookupClass name = some h →
      Phase s name h history ∧
      (s.symbols.classState name = .preprocessed → ownSightings h name history = []) ∧
      ∀ n ∈ s.ledger.usages h.id,
        ∃ x ∈ ownSightings h name history ++ memberReports history, x.owner = h ∧ x.node = n) ∧
    (∀ a ∈ history, a.2.kind = .classPreprocessed ∨ a.2.kind = .classResolved →
      ∃ name h, ownName? a.2 = some name ∧ s.symbols.lookupClass name = some h) ∧
    s.graph.inheritance.Nodup ∧ s.graph.types.Nodup ∧
    (s.graph.documentation.map Documentation.key).Nodup ∧
    s.graph.documentation.length = if options.skipDocumentation then 0 else
      s.graph.functions.length +
        s.graph.classes.countP fun c => s.symbols.classState c.entity.qualifiedName = .resolved := by
  intro s history
  have within : Within (· ∈ events.flatMap identities) s :=
    (Within.begin store options).run fun _ hi => hi
  have phased : Phased s history :=
    (Phased.begin store options).run (Within.begin store options) apart fun _ hi => hi
  have unique : Unique s :=
    (Unique.begin store options).run (Within.begin store options) apart fun _ hi => hi
  have tracked : Tracks s ((begin store options).reportedAmong events) :=
    (Tracks.begin store options).run events
  have kept : s.options = options := (invariant_options options).run rfl fun _ _ => trivial
  refine ⟨?_, phased.kinds, unique.inheritance, unique.types, unique.documentation, ?_⟩
  · intro name h found
    obtain ⟨known, isClass⟩ := SymbolTable.lookupKind_eq_some_iff.mp found
    have phase := phased.classes name h found
    refine ⟨phase, phase.ownSightings_eq_nil, ?_⟩
    intro n hn
    obtain ⟨x, hx, owned, recorded⟩ := tracked.kept h.id n hn
    obtain ⟨named, owner⟩ := (owner_id_eq_iff within apart known (tracked.owners x hx)).mp owned
    obtain ⟨a, ha, reported⟩ := mem_reportedAmong hx
    have source := sighting_of_class ha reported (owner ▸ isClass)
    rw [owner, named] at source
    exact ⟨x, source, owner, recorded⟩
  · have count : s.graph.classes.countP
          (fun c => s.symbols.classState c.entity.qualifiedName = .resolved) =
        s.graph.classes.countP fun c => s.symbols.states.find? c.entity.id = some .resolved := by
      refine List.countP_congr fun c hc => ?_
      obtain ⟨isClass, known⟩ := unique.entities .classType c.entity (List.mem_map.mpr ⟨c, hc, rfl⟩)
      have found : s.symbols.lookupClass c.entity.qualifiedName = some c.entity.handle :=
        SymbolTable.lookupKind_eq_some_iff.mpr ⟨known, isClass⟩
      rw [decide_eq_true_iff, decide_eq_true_iff, SymbolTable.classState_eq_resolved_iff found]
      rfl
    rw [count, ← kept]
    exact Documents.run apart store options fun _ hi => hi

/-- A class with a base is completed too early, in its turn and once more, and its base never: one base and
one text are buffered, and each class is in one of the phases. -/
theorem completed_in_its_turn :
    let place (line : UInt32) : Option Place :=
      some ⟨some "/a.py", some ⟨some ⟨line, 0⟩, some ⟨line, 3⟩⟩⟩
    let completion : Event :=
      .classResolved ⟨some "c", some "A class.", some ["b"], some {}, some [⟨place 3⟩]⟩
    let events : List Event := [completion, .classPreprocessed ⟨some "c", some "c", place 1, none⟩,
      .classPreprocessed ⟨some "b", some "b", place 2, none⟩, completion, completion]
    Apart .entity (events.flatMap identities) ∧
      (∀ name h, ((begin Store.empty {}).run events).symbols.lookupClass name = some h →
        Phase ((begin Store.empty {}).run events) name h ((begin Store.empty {}).acceptances events)) ∧
      ((begin Store.empty {}).run events).graph.inheritance.length = 1 ∧
      ((begin Store.empty {}).run events).graph.documentation.length = 1 := by
  intro place completion events
  have apart : Apart .entity (events.flatMap identities) := by decide +kernel
  obtain ⟨phases, _, _, _, _, documentation⟩ := classes_come_in_two_phases Store.empty {} events apart
  have counted : ((begin Store.empty {}).run events).graph.inheritance.length = 1 ∧
      ((begin Store.empty {}).run events).graph.functions.length +
        ((begin Store.empty {}).run events).graph.classes.countP (fun c =>
          ((begin Store.empty {}).run events).symbols.classState c.entity.qualifiedName = .resolved) = 1 := by
    decide +kernel
  refine ⟨apart, ?_, counted.1, ?_⟩
  · intro name h found
    exact (phases name h found).1
  · rw [documentation, if_neg (by decide)]
    exact counted.2

end Session

end SymbolIndex
