import SymbolIndex.Proofs.SymbolTable

/-!
# `Proofs.ThreeLists` — the symbol table as three lists

The table keeps one handle for each name, whatever its kind, and the states of classes under their
identifiers. What it is for is said more plainly with three lists in order of arrival, one for each kind of
entity, and a state for each class name: a name is searched for among variables, then functions, then
classes, and it can be declared if it is in none of them.

The table and the lists answer every call alike, whatever calls came before. What ties the two is
`Simulates`: each list is searched as the table is asked for names of its kind, and states are those of
the names. The table finds a state by identifier, so this needs that classes of different names have
different identifiers; otherwise resolving one would resolve the other.

## Contents
- `Call`, `after`, `answered`: runs of calls, of a table or of anything that answers them.
- `ThreeLists`: the lists with their own `register` and `resolve`.
- `Simulates`, kept by every call: `Simulates.call`, `Simulates.run`.
- `size_after`, `resolves_once`: what the answers add up to.
- `table_is_three_lists`.
-/

namespace SymbolIndex

/-! ## Runs of calls -/

/-- What can be asked of a symbol table that changes it. -/
inductive SymbolTable.Call where
  | register (entity : Entity)
  | resolve (name : String)
  deriving DecidableEq

open SymbolTable (Call)

namespace SymbolTable.Call

section Runs

variable {σ : Type} (step : σ → Call → Except Error Handle × σ)

/-- What there is after calls that are made one after another. -/
def after (s : σ) (calls : List Call) : σ :=
  calls.foldl (fun s c => (step s c).2) s

/-- Calls that are made one after another, each with its answer. -/
def answered : σ → List Call → List (Call × Except Error Handle)
  | _, [] => []
  | s, c :: calls => (c, (step s c).1) :: answered (step s c).2 calls

end Runs

/-- A registration that was accepted. -/
def registers : Call × Except Error Handle → Bool
  | (.register _, .ok _) => true
  | _ => false

/-- An accepted resolution of the class of that name. -/
def resolves (name : String) : Call × Except Error Handle → Bool
  | (.resolve other, .ok _) => other = name
  | _ => false

/-- The classes that calls bring along. -/
def classes (calls : List Call) : List Entity :=
  calls.filterMap fun
    | .register e => if e.kind = .classType then some e else none
    | .resolve _ => none

/-- A class that is brought by some call is one of the classes of the calls. -/
theorem mem_classes {calls : List Call} {e : Entity} (brought : Call.register e ∈ calls)
    (own : e.kind = .classType) : e ∈ classes calls :=
  List.mem_filterMap.mpr ⟨.register e, brought, if_pos own⟩

end SymbolTable.Call

/-- The answer of a table to a call and the table after it. A refused call leaves the table as it was. -/
def SymbolTable.call (t : SymbolTable) : Call → Except Error Handle × SymbolTable
  | .register e =>
    match t.register e with
    | .ok t' => (.ok e.handle, t')
    | .error err => (.error err, t)
  | .resolve name =>
    match t.resolveClass name with
    | .ok (h, t') => (.ok h, t')
    | .error err => (.error err, t)

namespace SymbolTable

variable {t t' : SymbolTable} {e : Entity} {h : Handle} {name : String} {err : Error}

/-- What the table answers to a call, and what becomes of it, in each of the four cases. -/
theorem call_registered (answer : t.register e = .ok t') : t.call (.register e) = (.ok e.handle, t') := by
  rw [call, answer]

theorem call_not_registered (answer : t.register e = .error err) : t.call (.register e) = (.error err, t) := by
  rw [call, answer]

theorem call_resolved (answer : t.resolveClass name = .ok (h, t')) : t.call (.resolve name) = (.ok h, t') := by
  rw [call, answer]

theorem call_not_resolved (answer : t.resolveClass name = .error err) :
    t.call (.resolve name) = (.error err, t) := by
  rw [call, answer]

end SymbolTable

/-! ## The lists -/

/-- Entities in order of arrival, each kind in a list of its own, and a state for each class name. -/
structure ThreeLists where
  variableList : List Entity := []
  functionList : List Entity := []
  classList : List Entity := []
  states : String → ClassState := fun _ => .unseen

namespace ThreeLists

/-- The first entity of a list that has the name. -/
def search (entities : List Entity) (name : String) : Option Handle :=
  (entities.find? fun e => e.qualifiedName = name).map Entity.handle

def listOf (d : ThreeLists) : EntityKind → List Entity
  | .variable => d.variableList
  | .function => d.functionList
  | .classType => d.classList

/-- Any entity by name: variables first, then functions, then classes. -/
def lookup (d : ThreeLists) (name : String) : Option Handle :=
  (search d.variableList name).or ((search d.functionList name).or (search d.classList name))

/-- Puts an entity at the end of the list of its kind; a class becomes preprocessed. -/
def add (d : ThreeLists) (e : Entity) : ThreeLists :=
  match e.kind with
  | .variable => { d with variableList := d.variableList ++ [e] }
  | .function => { d with functionList := d.functionList ++ [e] }
  | .classType =>
    { d with
      classList := d.classList ++ [e]
      states := fun name => if name = e.qualifiedName then .preprocessed else d.states name }

/-- The lists with the class of that name resolved. -/
def setResolved (d : ThreeLists) (name : String) : ThreeLists :=
  { d with states := fun other => if other = name then .resolved else d.states other }

/-- An entity is taken in unless its name is empty or in one of the lists. A class is resolved if it is
preprocessed. -/
def call (d : ThreeLists) : Call → Except Error Handle × ThreeLists
  | .register e =>
    if e.qualifiedName = "" then (.error (.missingField "qualified_name"), d)
    else
      match d.lookup e.qualifiedName with
      | some known => (.error (.duplicateDeclaration e.qualifiedName known.kind), d)
      | none => (.ok e.handle, d.add e)
  | .resolve name =>
    match d.states name, search d.classList name with
    | .preprocessed, some h => (.ok h, d.setResolved name)
    | state, _ => (.error (.invalidTransition name state .resolved), d)

variable {d : ThreeLists} {e : Entity} {name : String} {h : Handle} {kind : EntityKind}

/-- What is found in a list is an entity of the list. -/
theorem search_eq_some {entities : List Entity} (found : search entities name = some h) :
    ∃ e ∈ entities, e.qualifiedName = name ∧ e.handle = h := by
  unfold search at found
  obtain ⟨e, first, handle⟩ := Option.map_eq_some_iff.mp found
  exact ⟨e, List.mem_of_find?_eq_some first, by simpa using List.find?_some first, handle⟩

/-- Nothing is found if no entity of the list has the name. -/
theorem search_eq_none_iff {entities : List Entity} :
    search entities name = none ↔ ∀ e ∈ entities, e.qualifiedName ≠ name := by
  unfold search
  rw [Option.map_eq_none_iff, List.find?_eq_none]
  simp

/-- A name leads nowhere if it is in none of the three lists. -/
theorem lookup_eq_none_iff : d.lookup name = none ↔ ∀ kind, ∀ e ∈ d.listOf kind, e.qualifiedName ≠ name := by
  unfold lookup
  rw [Option.or_eq_none_iff, Option.or_eq_none_iff, search_eq_none_iff, search_eq_none_iff, search_eq_none_iff]
  constructor
  · rintro ⟨ofVariables, ofFunctions, ofClasses⟩ kind
    cases kind
    · exact ofVariables
    · exact ofFunctions
    · exact ofClasses
  · intro all
    exact ⟨all .variable, all .function, all .classType⟩

/-- An entity at the end of a list is found by its name, unless an earlier one is. -/
theorem search_concat (entities : List Entity) (e : Entity) (name : String) :
    search (entities ++ [e]) name =
      (search entities name).or (if e.qualifiedName = name then some e.handle else none) := by
  unfold search
  rw [List.find?_append, Option.map_or]
  by_cases same : e.qualifiedName = name <;> simp [same]

/-- An entity goes to the list of its kind. -/
theorem listOf_add (d : ThreeLists) (e : Entity) (kind : EntityKind) :
    (d.add e).listOf kind = if e.kind = kind then d.listOf kind ++ [e] else d.listOf kind := by
  unfold add
  cases own : e.kind <;> cases kind <;> rfl

/-- A class that is added starts out unfinished. -/
theorem states_add (d : ThreeLists) (e : Entity) (name : String) : (d.add e).states name =
    if e.kind = .classType ∧ name = e.qualifiedName then .preprocessed else d.states name := by
  unfold add
  cases own : e.kind <;> simp

theorem mem_classList_add {other : Entity} (added : other ∈ (d.add e).classList) :
    other ∈ d.classList ∨ other = e ∧ e.kind = .classType := by
  have lists := listOf_add d e .classType
  change (d.add e).classList = if e.kind = .classType then d.classList ++ [e] else d.classList at lists
  rw [lists] at added
  split at added
  · rename_i own
    rcases List.mem_append.mp added with old | new
    · exact Or.inl old
    · exact Or.inr ⟨List.mem_singleton.mp new, own⟩
  · exact Or.inl added

end ThreeLists

/-! ## What ties the table to the lists -/

open SymbolTable ThreeLists

/-- No two class names share an identifier. -/
def ClassNamesApart (classes : List Entity) : Prop :=
  ∀ c ∈ classes, ∀ c' ∈ classes, c.id = c'.id → c.qualifiedName = c'.qualifiedName

instance (classes : List Entity) : Decidable (ClassNamesApart classes) :=
  inferInstanceAs (Decidable (∀ c ∈ classes, ∀ c' ∈ classes, c.id = c'.id → c.qualifiedName = c'.qualifiedName))

/-- What ties a table to lists, as long as no classes but the given ones are taken in. -/
structure Simulates (classes : List Entity) (t : SymbolTable) (d : ThreeLists) : Prop where
  /-- The list of a kind is searched as the table is asked for that kind. -/
  listed : ∀ kind name, t.lookupKind kind name = search (d.listOf kind) name
  given : ∀ c ∈ d.classList, c ∈ classes
  states : ∀ name, t.classState name = d.states name
  /-- A class that is there has a state. -/
  begun : ∀ name, t.classState name = .unseen → t.lookupClass name = none

namespace Simulates

variable {classes : List Entity} {t : SymbolTable} {d : ThreeLists} {e : Entity} {name other : String}
  {h h' : Handle}

/-- The empty table answers as empty lists do. -/
theorem empty (classes : List Entity) : Simulates classes .empty {} where
  listed kind name := by
    unfold SymbolTable.lookupKind SymbolTable.lookup
    cases kind <;> split <;> rfl
  given _ hc := absurd hc List.not_mem_nil
  states name := by
    refine classState_of_not_class ?_
    unfold lookupClass SymbolTable.lookupKind SymbolTable.lookup
    split <;> rfl
  begun name _ := by
    unfold lookupClass SymbolTable.lookupKind SymbolTable.lookup
    split <;> rfl

/-- A name leads to the same in both. It does not matter in which order the lists are searched, since no
name is in two of them. -/
theorem lookup (s : Simulates classes t d) (name : String) : t.lookup name = d.lookup name := by
  rw [lookup_eq_or]
  unfold ThreeLists.lookup lookupVariable lookupFunction lookupClass
  rw [s.listed, s.listed, s.listed]
  rfl

/-- Classes of different names have different identifiers. -/
theorem name_of_id (s : Simulates classes t d) (apart : ClassNamesApart classes)
    (found : t.lookupClass name = some h) (found' : t.lookupClass other = some h') (same : h.id = h'.id) :
    name = other := by
  obtain ⟨c, hc, rfl, rfl⟩ := search_eq_some ((s.listed .classType name).symm.trans found)
  obtain ⟨c', hc', rfl, rfl⟩ := search_eq_some ((s.listed .classType other).symm.trans found')
  exact apart c (s.given c hc) c' (s.given c' hc') same

/-- Registering an entity is putting it into its list. -/
theorem register (s : Simulates classes t d) (apart : ClassNamesApart classes)
    (allowed : e.kind = .classType → e ∈ classes) {t' : SymbolTable} (ok : t.register e = .ok t') :
    Simulates classes t' (d.add e) := by
  have free : t.lookup e.qualifiedName = none := (register_eq_ok.mp ok).2.1
  have unlisted : ∀ kind, search (d.listOf kind) e.qualifiedName = none := by
    intro kind
    rw [← s.listed, SymbolTable.lookupKind, free]
    rfl
  -- a class that already has the identifier would have the name too, and the name is free
  have states := classState_of_register ok fun name h found own same => by
    obtain ⟨c, hc, rfl, rfl⟩ := search_eq_some ((s.listed .classType name).symm.trans found)
    have names := apart c (s.given c hc) e (allowed own) same
    exact search_eq_none_iff.mp (unlisted .classType) c hc names
  refine ⟨?listed, ?given, ?states, ?begun⟩
  case listed =>
    intro kind name
    rw [lookupKind_of_register ok, listOf_add]
    by_cases own : e.kind = kind
    · rw [if_pos own, if_pos own, search_concat]
      by_cases same : name = e.qualifiedName
      · rw [if_pos same, same, unlisted, if_pos rfl]
        rfl
      · rw [if_neg same, if_neg (Ne.symm same), Option.or_none, s.listed]
    · rw [if_neg own, if_neg own]
      by_cases same : name = e.qualifiedName
      · rw [if_pos same, same, unlisted]
      · rw [if_neg same, s.listed]
  case given =>
    intro c hc
    rcases mem_classList_add hc with old | ⟨rfl, own⟩
    · exact s.given c old
    · exact allowed own
  case states =>
    intro name
    rw [states, states_add, s.states]
  case begun =>
    intro name unseen
    rw [states] at unseen
    rw [lookupClass_of_register ok]
    by_cases same : name = e.qualifiedName
    · by_cases own : e.kind = .classType
      · rw [if_pos ⟨own, same⟩] at unseen
        cases unseen
      · rw [if_pos same, if_neg own]
    · rw [if_neg fun both => same both.2] at unseen
      rw [if_neg same]
      exact s.begun name unseen

/-- Resolving a class moves the state of its own name and of no other, since no other name has its
identifier. -/
theorem states_of_resolve (s : Simulates classes t d) (apart : ClassNamesApart classes) {t' : SymbolTable}
    (ok : t.resolveClass name = .ok (h, t')) (other : String) :
    t'.classState other = if other = name then .resolved else t.classState other := by
  have own := (resolveClass_eq_ok.mp ok).1
  exact classState_of_resolveClass ok (fun _ _ found same => s.name_of_id apart found own same) other

/-- Resolving a class is setting the state of its name. -/
theorem resolve (s : Simulates classes t d) (apart : ClassNamesApart classes) {t' : SymbolTable}
    (ok : t.resolveClass name = .ok (h, t')) : Simulates classes t' (d.setResolved name) := by
  have states := s.states_of_resolve apart ok
  have entries := entries_of_resolveClass ok
  refine ⟨?listed, s.given, ?states, ?begun⟩
  case listed =>
    intro kind other
    rw [lookupKind_congr entries, s.listed]
    cases kind <;> rfl
  case states =>
    intro other
    rw [states, s.states]
    rfl
  case begun =>
    intro other unseen
    rw [states] at unseen
    unfold lookupClass
    rw [lookupKind_congr entries]
    by_cases same : other = name
    · rw [if_pos same] at unseen
      cases unseen
    · rw [if_neg same] at unseen
      exact s.begun other unseen

/-- **The table answers a call as the lists do**, and stays tied to them. -/
theorem call (s : Simulates classes t d) (apart : ClassNamesApart classes) {c : Call}
    (allowed : ∀ e, c = .register e → e.kind = .classType → e ∈ classes) :
    (t.call c).1 = (d.call c).1 ∧ Simulates classes (t.call c).2 (d.call c).2 := by
  cases c with
  | register e =>
    by_cases empty : e.qualifiedName = ""
    · rw [call_not_registered (register_of_empty empty), ThreeLists.call, if_pos empty]
      exact ⟨rfl, s⟩
    · rw [ThreeLists.call, if_neg empty, ← s.lookup]
      cases found : t.lookup e.qualifiedName with
      | some known =>
        rw [call_not_registered (register_of_taken empty found)]
        exact ⟨rfl, s⟩
      | none =>
        have answer := register_eq_ok.mpr ⟨empty, found, rfl⟩
        rw [call_registered answer]
        exact ⟨rfl, s.register apart (allowed e rfl) answer⟩
  | resolve name =>
    have list : search d.classList name = t.lookupClass name := (s.listed .classType name).symm
    rw [ThreeLists.call, ← s.states, list]
    cases answer : t.resolveClass name with
    | ok result =>
      obtain ⟨h, t'⟩ := result
      obtain ⟨found, state, _⟩ := resolveClass_eq_ok.mp answer
      rw [call_resolved answer, classState_eq_preprocessed_iff.mpr ⟨h, found, state⟩, found]
      exact ⟨rfl, s.resolve apart answer⟩
    | error err =>
      obtain ⟨other, rfl⟩ := resolveClass_eq_error.mp answer
      rw [call_not_resolved answer]
      cases state : t.classState name with
      | preprocessed => exact absurd state other
      | unseen => exact ⟨rfl, s⟩
      | resolved => exact ⟨rfl, s⟩

/-- **Runs of calls are answered alike.** -/
theorem run (s : Simulates classes t d) (apart : ClassNamesApart classes) {calls : List Call}
    (allowed : ∀ e, .register e ∈ calls → e.kind = .classType → e ∈ classes) :
    Call.answered SymbolTable.call t calls = Call.answered ThreeLists.call d calls ∧
      Simulates classes (Call.after SymbolTable.call t calls) (Call.after ThreeLists.call d calls) := by
  -- the calls that are left are asked of what the first one leaves, which is tied again
  induction calls generalizing t d with
  | nil => exact ⟨rfl, s⟩
  | cons c calls ih =>
    obtain ⟨first, next⟩ := s.call apart fun e same => allowed e (same ▸ List.mem_cons_self)
    obtain ⟨others, last⟩ := ih next fun e later => allowed e (List.mem_cons_of_mem c later)
    refine ⟨?_, last⟩
    rw [Call.answered, Call.answered, first, others]

end Simulates

/-! ## What the answers add up to -/

namespace SymbolTable

variable {t : SymbolTable}

/-- A call adds a name to the table if it registers one, and else none. -/
theorem size_call (t : SymbolTable) (c : Call) :
    (t.call c).2.size = t.size + if Call.registers (c, (t.call c).1) then 1 else 0 := by
  cases c with
  | register e =>
    cases answer : t.register e with
    | error err =>
      rw [call_not_registered answer]
      rfl
    | ok t' =>
      obtain ⟨nonempty, free, same⟩ := register_eq_ok.mp answer
      have new : t.entries.find? e.qualifiedName = none := by
        rw [lookup, if_neg nonempty] at free
        exact free
      rw [call_registered answer, same]
      show (t.entries.put e.qualifiedName e.handle).pairs.length = t.entries.pairs.length + 1
      rw [Dictionary.pairs_put_of_new new, List.length_append, List.length_singleton]
  | resolve name =>
    cases answer : t.resolveClass name with
    | error err =>
      rw [call_not_resolved answer]
      rfl
    | ok result =>
      rw [call_resolved answer]
      show result.2.entries.size = t.entries.size
      rw [entries_of_resolveClass answer]

/-- **The size of a table counts the registrations that were accepted.** -/
theorem size_after (t : SymbolTable) (calls : List Call) :
    (Call.after call t calls).size = t.size + (Call.answered call t calls).countP Call.registers := by
  induction calls generalizing t with
  | nil => rfl
  | cons c calls ih =>
    show (Call.after call (t.call c).2 calls).size = _
    rw [ih, size_call, Call.answered, List.countP_cons]
    omega

end SymbolTable

namespace Simulates

variable {classes : List Entity} {t : SymbolTable} {d : ThreeLists} {name : String}

/-- A resolved class stays resolved and is not resolved again. -/
theorem call_of_resolved (s : Simulates classes t d) (apart : ClassNamesApart classes) {c : Call}
    (allowed : ∀ e, c = .register e → e.kind = .classType → e ∈ classes) (before : t.classState name = .resolved) :
    (t.call c).2.classState name = .resolved ∧ Call.resolves name (c, (t.call c).1) = false := by
  cases c with
  | register e =>
    refine ⟨?_, rfl⟩
    cases answer : t.register e with
    | error err =>
      rw [call_not_registered answer]
      exact before
    | ok t' =>
      -- a name with a state is taken, so it is not the one that was registered
      have other : name ≠ e.qualifiedName := by
        rintro rfl
        rw [classState_of_free (register_eq_ok.mp answer).2.1] at before
        cases before
      have next := s.register apart (allowed e rfl) answer
      rw [call_registered answer, next.states, states_add, if_neg fun both => other both.2, ← s.states]
      exact before
  | resolve other =>
    cases answer : t.resolveClass other with
    | error err =>
      rw [call_not_resolved answer]
      exact ⟨before, rfl⟩
    | ok result =>
      obtain ⟨h, t'⟩ := result
      obtain ⟨found, state, _⟩ := resolveClass_eq_ok.mp answer
      have names : other ≠ name := by
        rintro rfl
        rw [classState_eq_preprocessed_iff.mpr ⟨h, found, state⟩] at before
        cases before
      rw [call_resolved answer]
      refine ⟨?_, by simpa [Call.resolves] using names⟩
      rw [s.states_of_resolve apart answer, if_neg (Ne.symm names)]
      exact before

/-- A class that has just been resolved is resolved. -/
theorem call_of_resolves (s : Simulates classes t d) (apart : ClassNamesApart classes) {c : Call}
    (resolves : Call.resolves name (c, (t.call c).1) = true) : (t.call c).2.classState name = .resolved := by
  cases c with
  | register e => cases resolves
  | resolve other =>
    cases answer : t.resolveClass other with
    | error err =>
      rw [call_not_resolved answer] at resolves
      cases resolves
    | ok result =>
      rw [call_resolved answer] at resolves ⊢
      have same : other = name := by simpa [Call.resolves] using resolves
      rw [s.states_of_resolve apart answer, if_pos same.symm]

/-- **A class is resolved at most once.** -/
theorem resolves_once (s : Simulates classes t d) (apart : ClassNamesApart classes) {calls : List Call}
    (allowed : ∀ e, .register e ∈ calls → e.kind = .classType → e ∈ classes) (name : String) :
    (Call.answered SymbolTable.call t calls).countP (Call.resolves name) ≤
      if t.classState name = .resolved then 0 else 1 := by
  induction calls generalizing t d with
  | nil => exact Nat.zero_le _
  | cons c calls ih =>
    have own : ∀ e, c = .register e → e.kind = .classType → e ∈ classes := fun e same =>
      allowed e (same ▸ List.mem_cons_self)
    have rest := ih (s.call apart own).2 fun e later => allowed e (List.mem_cons_of_mem c later)
    rw [Call.answered, List.countP_cons]
    -- before the one answer that counts the bound is spent on it, after it there is nothing to count
    by_cases before : t.classState name = .resolved
    · obtain ⟨after, no⟩ := s.call_of_resolved apart own before
      rw [if_pos after] at rest
      rw [if_pos before, no]
      exact rest
    · rw [if_neg before]
      cases now : Call.resolves name (c, (t.call c).1) with
      | true =>
        rw [if_pos (s.call_of_resolves apart now)] at rest
        exact Nat.add_le_add_right rest 1
      | false =>
        refine Nat.le_trans rest ?_
        split <;> decide

end Simulates

/-! ## The table and the lists -/

/-- What a table and three lists have in common: all that can be asked of either, and what the table
does on the next call. -/
structure SymbolTable.AgreesWith (t : SymbolTable) (d : ThreeLists) : Prop where
  lookup : ∀ name, t.lookup name = d.lookup name
  lookupVariable : ∀ name, t.lookupVariable name = search d.variableList name
  lookupFunction : ∀ name, t.lookupFunction name = search d.functionList name
  lookupClass : ∀ name, t.lookupClass name = search d.classList name
  classState : ∀ name, t.classState name = d.states name
  unseen : ∀ name, t.classState name = .unseen ↔ t.lookupClass name = none
  /-- Names are refused if they are empty or in one of the lists. -/
  refuses : ∀ e, (∃ err, (t.call (.register e)).1 = .error err) ↔
    e.qualifiedName = "" ∨ ∃ kind, ∃ known ∈ d.listOf kind, known.qualifiedName = e.qualifiedName
  refused : ∀ e err, (t.call (.register e)).1 = .error err → (t.call (.register e)).2 = t
  /-- Classes are resolved from preprocessed. -/
  resolves : ∀ name, (∃ h, (t.call (.resolve name)).1 = .ok h) ↔ t.classState name = .preprocessed
  /-- A resolution sets the state of its class and leaves all else as it was. -/
  resolved : ∀ name h, (t.call (.resolve name)).1 = .ok h →
    (t.call (.resolve name)).2.classState name = .resolved ∧
    (∀ other, other ≠ name → (t.call (.resolve name)).2.classState other = t.classState other) ∧
    (∀ other, (t.call (.resolve name)).2.lookup other = t.lookup other) ∧
    (t.call (.resolve name)).2.size = t.size
  notResolved : ∀ name err, (t.call (.resolve name)).1 = .error err →
    err = .invalidTransition name (t.classState name) .resolved ∧ (t.call (.resolve name)).2 = t

namespace Simulates

variable {classes : List Entity} {t : SymbolTable} {d : ThreeLists}

/-- **An entity is refused** for want of a name, or for a name that is in one of the lists. -/
theorem refuses (s : Simulates classes t d) (e : Entity) : (∃ err, (t.call (.register e)).1 = .error err) ↔
    e.qualifiedName = "" ∨ ∃ kind, ∃ known ∈ d.listOf kind, known.qualifiedName = e.qualifiedName := by
  by_cases empty : e.qualifiedName = ""
  · rw [call_not_registered (register_of_empty empty)]
    exact ⟨fun _ => Or.inl empty, fun _ => ⟨_, rfl⟩⟩
  · cases found : t.lookup e.qualifiedName with
    | some known =>
      rw [call_not_registered (register_of_taken empty found)]
      refine ⟨fun _ => Or.inr ?_, fun _ => ⟨_, rfl⟩⟩
      have listed : ¬ d.lookup e.qualifiedName = none := by
        rw [← s.lookup, found]
        exact nofun
      rw [lookup_eq_none_iff] at listed
      push Not at listed
      exact listed
    | none =>
      rw [call_registered (register_eq_ok.mpr ⟨empty, found, rfl⟩)]
      constructor
      · rintro ⟨err, refused⟩
        cases refused
      · rintro (nameless | ⟨kind, known, there, same⟩)
        · exact absurd nameless empty
        · rw [s.lookup, lookup_eq_none_iff] at found
          exact absurd same (found kind known there)

/-- What simulates the lists answers as they do. -/
theorem agrees (s : Simulates classes t d) (apart : ClassNamesApart classes) : t.AgreesWith d where
  lookup := s.lookup
  lookupVariable := s.listed .variable
  lookupFunction := s.listed .function
  lookupClass := s.listed .classType
  classState := s.states
  unseen name := ⟨s.begun name, classState_of_not_class⟩
  refuses := s.refuses
  refused e err refused := by
    cases answer : t.register e with
    | ok t' =>
      rw [call_registered answer] at refused
      cases refused
    | error err => rw [call_not_registered answer]
  resolves name := by
    rw [classState_eq_preprocessed_iff]
    cases answer : t.resolveClass name with
    | ok result =>
      obtain ⟨h, t'⟩ := result
      obtain ⟨found, state, _⟩ := resolveClass_eq_ok.mp answer
      rw [call_resolved answer]
      exact ⟨fun _ => ⟨h, found, state⟩, fun _ => ⟨h, rfl⟩⟩
    | error err =>
      rw [call_not_resolved answer, ← classState_eq_preprocessed_iff]
      constructor
      · rintro ⟨h, accepted⟩
        cases accepted
      · intro state
        exact absurd state (resolveClass_eq_error.mp answer).1
  resolved name h resolved := by
    cases answer : t.resolveClass name with
    | error err =>
      rw [call_not_resolved answer] at resolved
      cases resolved
    | ok result =>
      have states := s.states_of_resolve apart answer
      rw [call_resolved answer]
      refine ⟨?_, ?_, ?_, ?_⟩
      · rw [states, if_pos rfl]
      · intro other differs
        rw [states, if_neg differs]
      · intro other
        rw [lookup_congr (entries_of_resolveClass answer)]
      · show result.2.entries.size = t.entries.size
        rw [entries_of_resolveClass answer]
  notResolved name err refused := by
    cases answer : t.resolveClass name with
    | ok result =>
      rw [call_resolved answer] at refused
      cases refused
    | error err' =>
      rw [call_not_resolved answer] at refused ⊢
      cases refused
      exact ⟨(resolveClass_eq_error.mp answer).2, rfl⟩

end Simulates

/-- **The symbol table is three lists.** Whatever is asked of it, in whatever order, every call is answered
as the lists answer it and afterwards the two agree; a class is resolved at most once, and the size of the
table is the number of registrations that were accepted. -/
theorem table_is_three_lists (calls : List Call) (apart : ClassNamesApart (Call.classes calls)) :
    Call.answered SymbolTable.call .empty calls = Call.answered ThreeLists.call {} calls ∧
    (Call.after SymbolTable.call .empty calls).AgreesWith (Call.after ThreeLists.call {} calls) ∧
    (∀ name, (Call.answered SymbolTable.call .empty calls).countP (Call.resolves name) ≤ 1) ∧
    (Call.after SymbolTable.call .empty calls).size =
      (Call.answered SymbolTable.call .empty calls).countP Call.registers := by
  have start := Simulates.empty (Call.classes calls)
  have brought : ∀ e, .register e ∈ calls → e.kind = .classType → e ∈ Call.classes calls := fun _ =>
    Call.mem_classes
  obtain ⟨answers, tied⟩ := start.run apart brought
  refine ⟨answers, tied.agrees apart, ?_, ?_⟩
  · intro name
    refine Nat.le_trans (start.resolves_once apart brought name) ?_
    split <;> decide
  · rw [SymbolTable.size_after]
    exact Nat.zero_add _

/-- A variable and a class that want one name, a class that is resolved twice, and a variable that is
resolved like one. -/
theorem one_name_for_two_kinds :
    ClassNamesApart (Call.classes [.register ⟨⟨1⟩, .variable, ⟨7⟩, "a", "m.a", ""⟩,
      .register ⟨⟨2⟩, .classType, ⟨8⟩, "a", "m.a", ""⟩, .register ⟨⟨3⟩, .classType, ⟨9⟩, "C", "m.C", ""⟩,
      .resolve "m.C", .resolve "m.C", .resolve "m.a"]) ∧
    (Call.answered SymbolTable.call .empty [.register ⟨⟨1⟩, .variable, ⟨7⟩, "a", "m.a", ""⟩,
      .register ⟨⟨2⟩, .classType, ⟨8⟩, "a", "m.a", ""⟩, .register ⟨⟨3⟩, .classType, ⟨9⟩, "C", "m.C", ""⟩,
      .resolve "m.C", .resolve "m.C", .resolve "m.a"]).map Prod.snd =
      [.ok ⟨.variable, ⟨1⟩, ⟨7⟩⟩, .error (.duplicateDeclaration "m.a" .variable),
        .ok ⟨.classType, ⟨3⟩, ⟨9⟩⟩, .ok ⟨.classType, ⟨3⟩, ⟨9⟩⟩,
        .error (.invalidTransition "m.C" .resolved .resolved),
        .error (.invalidTransition "m.a" .unseen .resolved)] := by
  have apart : ClassNamesApart (Call.classes [.register ⟨⟨1⟩, .variable, ⟨7⟩, "a", "m.a", ""⟩,
      .register ⟨⟨2⟩, .classType, ⟨8⟩, "a", "m.a", ""⟩, .register ⟨⟨3⟩, .classType, ⟨9⟩, "C", "m.C", ""⟩,
      .resolve "m.C", .resolve "m.C", .resolve "m.a"]) := by decide
  refine ⟨apart, ?_⟩
  rw [(table_is_three_lists _ apart).1]
  rfl

end SymbolIndex
