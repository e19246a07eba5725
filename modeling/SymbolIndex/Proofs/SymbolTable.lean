import SymbolIndex.Proofs.Dictionary
import SymbolIndex.SymbolTable

/-!
# `Proofs.SymbolTable` — what registering and resolving do to a table

A table is read through `lookup` and through the state that it keeps for an identifier. The two
operations that change a table are described by when they succeed and by what they do to either view.

## Contents
- `lookup_eq_or`: any entity is looked up kind by kind.
- `register_eq_ok`, `lookup_of_register`, `lookupKind_of_register`, `states_of_register`.
- `resolveClass_eq_ok`, `resolveClass_eq_error`: a class is resolved from preprocessed only, and no name is
  touched.
- `classState_of_register`, `classState_of_resolveClass`: whose state changes.
-/

namespace SymbolIndex.SymbolTable

variable {t t' : SymbolTable} {e : Entity} {h : Handle} {kind : EntityKind} {name other : String}

/-- The empty name leads nowhere, whatever the entries are. -/
theorem lookup_eq_some_iff : t.lookup name = some h ↔ name ≠ "" ∧ t.entries.find? name = some h := by
  unfold lookup
  split
  · rename_i empty
    exact ⟨fun found => absurd found (by simp), fun found => absurd empty found.1⟩
  · rename_i nonempty
    exact ⟨fun found => ⟨nonempty, found⟩, And.right⟩

/-- A name is looked up for a kind by looking it up and comparing the kinds. -/
theorem lookupKind_eq_some_iff :
    t.lookupKind kind name = some h ↔ t.lookup name = some h ∧ h.kind = kind := by
  unfold lookupKind
  rw [Option.filter_eq_some_iff, decide_eq_true_eq]

/-- Looking a name up asks for the entries alone. -/
theorem lookup_congr (same : t'.entries = t.entries) : t'.lookup = t.lookup := by
  funext name
  unfold lookup
  rw [same]

/-- Looking up depends on the entries alone. -/
theorem lookupKind_congr (same : t'.entries = t.entries) : t'.lookupKind = t.lookupKind := by
  funext kind name
  unfold lookupKind
  rw [lookup_congr same]

/-- Asking for any entity is asking for each kind in turn. -/
theorem lookup_eq_or (t : SymbolTable) (name : String) : t.lookup name =
    (t.lookupVariable name).or ((t.lookupFunction name).or (t.lookupClass name)) := by
  unfold lookupVariable lookupFunction lookupClass lookupKind
  cases t.lookup name with
  | none => rfl
  | some h => cases own : h.kind <;> simp [Option.filter, own]

/-! ## `register` -/

/-- An entity without a name is refused as one with a field missing. -/
theorem register_of_empty (empty : e.qualifiedName = "") :
    t.register e = .error (.missingField "qualified_name") := by
  unfold register
  rw [if_pos empty]

/-- A name that is taken is refused, whatever the kind that it is taken by. -/
theorem register_of_taken (nonempty : e.qualifiedName ≠ "") (taken : t.lookup e.qualifiedName = some h) :
    t.register e = .error (.duplicateDeclaration e.qualifiedName h.kind) := by
  unfold register
  rw [if_neg nonempty, (lookup_eq_some_iff.mp taken).2]

/-- An entity is registered if its name is there and free. -/
theorem register_eq_ok : t.register e = .ok t' ↔
    e.qualifiedName ≠ "" ∧ t.lookup e.qualifiedName = none ∧ t' = {
      entries := t.entries.put e.qualifiedName e.handle
      states := if e.kind = .classType then t.states.put e.id .preprocessed else t.states } := by
  unfold register lookup
  by_cases empty : e.qualifiedName = ""
  · simp [empty]
  · simp only [if_neg empty]
    cases t.entries.find? e.qualifiedName with
    | none => simp [empty, eq_comm]
    | some existing => simp

/-- A registered name leads to its entity, and every other name where it led. -/
theorem lookup_of_register (ok : t.register e = .ok t') (other : String) :
    t'.lookup other = if other = e.qualifiedName then some e.handle else t.lookup other := by
  obtain ⟨nonempty, free, rfl⟩ := register_eq_ok.mp ok
  unfold lookup
  dsimp only
  rw [Dictionary.find?_put]
  by_cases same : other = e.qualifiedName
  · rw [if_pos same, if_pos same.symm, if_neg (same ▸ nonempty)]
  · rw [if_neg same, if_neg (Ne.symm same)]

/-- For its own kind it does so; for the other kinds it leads nowhere. -/
theorem lookupKind_of_register (ok : t.register e = .ok t') (kind : EntityKind) (other : String) :
    t'.lookupKind kind other =
      if other = e.qualifiedName then (if e.kind = kind then some e.handle else none)
      else t.lookupKind kind other := by
  unfold lookupKind
  rw [lookup_of_register ok]
  by_cases same : other = e.qualifiedName
  · rw [if_pos same, if_pos same]
    by_cases own : e.kind = kind <;> simp [Entity.handle, own]
  · rw [if_neg same, if_neg same]

theorem lookupClass_of_register (ok : t.register e = .ok t') (other : String) :
    t'.lookupClass other =
      if other = e.qualifiedName then (if e.kind = .classType then some e.handle else none)
      else t.lookupClass other :=
  lookupKind_of_register ok .classType other

/-- What is registered is found. -/
theorem lookup_self_of_register (ok : t.register e = .ok t') :
    t'.lookup e.qualifiedName = some e.handle := by
  rw [lookup_of_register ok, if_pos rfl]

/-- Registering takes no name away. -/
theorem lookup_register_of_lookup (ok : t.register e = .ok t') (found : t.lookup name = some h) :
    t'.lookup name = some h := by
  rw [lookup_of_register ok]
  split
  · rename_i same
    rw [same, (register_eq_ok.mp ok).2.1] at found
    cases found
  · exact found

/-- After registering, a name leads to the new entity or to what it led to before. -/
theorem lookup_of_lookup_register (ok : t.register e = .ok t') (found : t'.lookup name = some h) :
    (name = e.qualifiedName ∧ h = e.handle) ∨ t.lookup name = some h := by
  rw [lookup_of_register ok] at found
  split at found
  · rename_i same
    cases found
    exact Or.inl ⟨same, rfl⟩
  · exact Or.inr found

/-- A class is entered with its first state, and no other state is touched. -/
theorem states_of_register (ok : t.register e = .ok t') (id : EntityId) :
    t'.states.find? id =
      if e.kind = .classType ∧ id = e.id then some .preprocessed else t.states.find? id := by
  obtain ⟨_, _, rfl⟩ := register_eq_ok.mp ok
  by_cases isClass : e.kind = .classType
  · simp only [isClass, if_true, true_and]
    rw [Dictionary.find?_put]
    by_cases same : e.id = id
    · rw [if_pos same, if_pos same.symm]
    · rw [if_neg same, if_neg fun h => same h.symm]
  · simp [isClass]

/-! ## `resolveClass` -/

/-- A class waits to be completed if its name leads to a class that has the first state. -/
theorem classState_eq_preprocessed_iff : t.classState name = .preprocessed ↔
    ∃ h, t.lookupClass name = some h ∧ t.states.find? h.id = some .preprocessed := by
  unfold classState
  cases t.lookupClass name with
  | none => simp
  | some h =>
    cases found : t.states.find? h.id with
    | none => simp [found]
    | some state => simp [found]

/-- It is completed if it has the second one. -/
theorem classState_eq_resolved_iff (found : t.lookupClass name = some h) :
    t.classState name = .resolved ↔ t.states.find? h.id = some .resolved := by
  unfold classState
  rw [found]
  cases known : t.states.find? h.id with
  | none => simp [known]
  | some state => simp [known]

/-- A class is resolved if it is preprocessed; only its state changes. -/
theorem resolveClass_eq_ok : t.resolveClass name = .ok (h, t') ↔
    t.lookupClass name = some h ∧ t.states.find? h.id = some .preprocessed ∧
      t' = { t with states := t.states.put h.id .resolved } := by
  unfold resolveClass
  constructor
  · intro ok
    split at ok
    · rename_i owner state found
      obtain ⟨h', found', preprocessed⟩ := classState_eq_preprocessed_iff.mp state
      rw [found] at found'
      cases found'
      cases ok
      exact ⟨found, preprocessed, rfl⟩
    · cases ok
  · rintro ⟨found, preprocessed, rfl⟩
    rw [classState_eq_preprocessed_iff.mpr ⟨h, found, preprocessed⟩, found]

/-- A class is not resolved if it is not preprocessed. -/
theorem resolveClass_eq_error {err : Error} : t.resolveClass name = .error err ↔
    t.classState name ≠ .preprocessed ∧ err = .invalidTransition name (t.classState name) .resolved := by
  by_cases preprocessed : t.classState name = .preprocessed
  · obtain ⟨h, found, state⟩ := classState_eq_preprocessed_iff.mp preprocessed
    rw [resolveClass_eq_ok.mpr ⟨found, state, rfl⟩]
    exact ⟨nofun, fun refused => absurd preprocessed refused.1⟩
  · unfold resolveClass
    cases state : t.classState name with
    | preprocessed => exact absurd state preprocessed
    | unseen => simp [eq_comm]
    | resolved => simp [eq_comm]

/-- Resolving a class changes no name. -/
theorem entries_of_resolveClass (ok : t.resolveClass name = .ok (h, t')) : t'.entries = t.entries := by
  obtain ⟨_, _, rfl⟩ := resolveClass_eq_ok.mp ok
  rfl

/-- A class that has been resolved is still found. -/
theorem lookupClass_of_resolveClass (ok : t.resolveClass name = .ok (h, t')) :
    t'.lookupClass name = some h := by
  unfold lookupClass
  rw [lookupKind_congr (entries_of_resolveClass ok)]
  exact (resolveClass_eq_ok.mp ok).1

/-- It changes the state of that class and of no other. -/
theorem states_of_resolveClass (ok : t.resolveClass name = .ok (h, t')) (id : EntityId) :
    t'.states.find? id = if id = h.id then some .resolved else t.states.find? id := by
  obtain ⟨_, _, rfl⟩ := resolveClass_eq_ok.mp ok
  dsimp only
  rw [Dictionary.find?_put]
  by_cases same : h.id = id
  · rw [if_pos same, if_pos same.symm]
  · rw [if_neg same, if_neg fun h => same h.symm]

/-! ## States of classes -/

/-- The state of a name is that of the class that it leads to. -/
theorem classState_of_lookupClass (found : t.lookupClass name = some h) :
    t.classState name = (t.states.find? h.id).getD .unseen := by
  unfold classState
  rw [found]
  rfl

/-- A name that leads to no class has the state of one that was never seen. -/
theorem classState_of_not_class (none : t.lookupClass name = none) : t.classState name = .unseen := by
  unfold classState
  rw [none]
  rfl

theorem classState_of_free (free : t.lookup name = none) : t.classState name = .unseen := by
  refine classState_of_not_class ?_
  rw [lookupClass, lookupKind, free]
  rfl

/-- Registering an entity sets the state of its own name only, unless another class has its identifier. -/
theorem classState_of_register (ok : t.register e = .ok t')
    (apart : ∀ name h, t.lookupClass name = some h → e.kind = .classType → h.id ≠ e.id) (name : String) :
    t'.classState name =
      if e.kind = .classType ∧ name = e.qualifiedName then .preprocessed else t.classState name := by
  have classes := lookupClass_of_register ok name
  by_cases same : name = e.qualifiedName
  · rw [if_pos same] at classes
    by_cases own : e.kind = .classType
    · rw [if_pos own] at classes
      rw [if_pos ⟨own, same⟩, classState_of_lookupClass classes, states_of_register ok, if_pos ⟨own, rfl⟩]
      rfl
    · rw [if_neg own] at classes
      have free : t.lookup name = none := same ▸ (register_eq_ok.mp ok).2.1
      rw [if_neg fun h => own h.1, classState_of_not_class classes, classState_of_free free]
  · rw [if_neg same] at classes
    rw [if_neg fun h => same h.2]
    cases before : t.lookupClass name with
    | none => rw [classState_of_not_class before, classState_of_not_class (classes.trans before)]
    | some h =>
      rw [classState_of_lookupClass before, classState_of_lookupClass (classes.trans before),
        states_of_register ok, if_neg fun both => apart name h before both.1 both.2]

/-- Resolving a class sets its own state only, unless another class has its identifier. -/
theorem classState_of_resolveClass (ok : t.resolveClass name = .ok (h, t'))
    (apart : ∀ other h', t.lookupClass other = some h' → h'.id = h.id → other = name) (other : String) :
    t'.classState other = if other = name then .resolved else t.classState other := by
  have classes : t'.lookupClass other = t.lookupClass other := by
    unfold lookupClass
    rw [lookupKind_congr (entries_of_resolveClass ok)]
  by_cases same : other = name
  · subst same
    rw [if_pos rfl, classState_of_lookupClass (lookupClass_of_resolveClass ok), states_of_resolveClass ok,
      if_pos rfl]
    rfl
  · rw [if_neg same]
    cases before : t.lookupClass other with
    | none => rw [classState_of_not_class before, classState_of_not_class (classes.trans before)]
    | some h' =>
      rw [classState_of_lookupClass before, classState_of_lookupClass (classes.trans before),
        states_of_resolveClass ok, if_neg fun ids => same (apart other h' before ids)]

end SymbolIndex.SymbolTable
