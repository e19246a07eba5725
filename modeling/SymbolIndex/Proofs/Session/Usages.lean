import SymbolIndex.Proofs.Session.Within

/-!
# `Proofs.Session.Usages` — no usage is lost and none is kept twice

Usages of an entity are reported with its own declaration, with the completion of the class that it is,
and with every completed class that has it as a member. Whichever way they come and in whatever order,
the ledger ends with one node for each location. `Tracks` relates the ledger to the list of everything
reported so far; one step of a session extends that list by what the accepted event reports
(`Tracks.ingest`), and a run by `reportedAmong`.

## Contents
- `reportedAmong`: what the accepted events of a run report.
- `Tracks`, kept by each step and by a run.
- `usages_kept_once`.
-/

namespace SymbolIndex.Session

variable {σ : Type} {s s' : Session σ} {xs : List Sighting}

/-- What an event reports once it is taken in: usages of entities that the session knows by then. -/
def reportsOf [Recorder σ] (s : Session σ) (e : Event) : List Sighting :=
  if s.refuses e then [] else reported (s.ingest e).symbols e

/-- What the accepted events of a run report. -/
def reportedAmong [Recorder σ] (s : Session σ) : List Event → List Sighting
  | [] => []
  | e :: events => s.reportsOf e ++ (s.ingest e).reportedAmong events

/-- The ledger of a session keeps the usages `xs`, each location of an entity once. -/
structure Tracks (s : Session σ) (xs : List Sighting) : Prop where
  owners : ∀ x ∈ xs, s.symbols.lookup x.name = some x.owner
  /-- The entries of the ledger are those of the registered entities. -/
  entries : ∀ id, s.ledger.contains id = true ↔ ∃ name h, s.symbols.lookup name = some h ∧ h.id = id
  distinct : s.ledger.Distinct
  kept : ∀ id, ∀ n ∈ s.ledger.usages id, ∃ x ∈ xs, x.owner.id = id ∧ x.node = n
  found : ∀ x ∈ xs, x.location ∈ (s.ledger.usages x.owner.id).map Node.location
  settled : s.ledger.total + s.stats.duplicateUsages = xs.length

namespace Tracks

theorem begin (store : σ) (options : Options) : Tracks (begin store options) [] where
  owners _ hx := nomatch hx
  entries _ := ⟨fun known => (nomatch known),
    fun ⟨_, _, found, _⟩ => (nomatch (SymbolTable.lookup_eq_some_iff.mp found).2)⟩
  distinct := Ledger.distinct_empty
  kept _ _ hn := nomatch hn
  found _ hx := nomatch hx
  settled := rfl

/-- Work whose usages are those of registered entities adds them to what is tracked. -/
theorem effect {paths : List String} {ys : List Sighting} {g : Graph} (h : Tracks s xs)
    (done : Effect s s' paths ys g) (owned : ∀ y ∈ ys, s.symbols.lookup y.name = some y.owner) :
    Tracks s' (xs ++ ys) where
  owners x hx := by
    rw [done.symbols]
    exact (List.mem_append.mp hx).elim (h.owners x) (owned x)
  entries id := by
    rw [done.ledger, done.symbols, Ledger.contains_offer, h.entries id]
    constructor
    · rintro (known | ⟨y, hy, rfl⟩)
      · exact known
      · exact ⟨y.name, y.owner, owned y hy, rfl⟩
    · exact Or.inl
  distinct := done.ledger ▸ h.distinct.offer ys
  kept id n hn := by
    rw [done.ledger] at hn
    rcases Ledger.mem_usages_offer hn with old | ⟨y, hy, new⟩
    · obtain ⟨x, hx, old⟩ := h.kept id n old
      exact ⟨x, List.mem_append_left _ hx, old⟩
    · exact ⟨y, List.mem_append_right _ hy, new⟩
  found x hx := by
    rw [done.ledger, Ledger.locations_offer]
    rcases List.mem_append.mp hx with old | new
    · exact Or.inl (h.found x old)
    · exact Or.inr ⟨x, new, rfl, rfl⟩
  settled := by
    rw [done.settled, h.settled, List.length_append]

theorem quiet (h : Tracks s xs) (done : Effect s s' [] [] {}) : Tracks s' xs := by
  have same := h.effect done fun _ hy => nomatch hy
  rwa [List.append_nil] at same

/-- A new entity gets an entry of its own. -/
theorem enter {d : Declaration} {t : SymbolTable} (h : Tracks s xs)
    (ok : s.symbols.register d.entity = .ok t) : Tracks (s.enter d t) xs where
  owners x hx := SymbolTable.lookup_register_of_lookup ok (h.owners x hx)
  entries id := by
    show (s.ledger.register d.entity.id).contains id = true ↔
      ∃ name h, t.lookup name = some h ∧ h.id = id
    rw [Ledger.contains_register, h.entries id]
    constructor
    · rintro (rfl | ⟨name, h', known, rfl⟩)
      · exact ⟨_, _, SymbolTable.lookup_self_of_register ok, rfl⟩
      · exact ⟨name, h', SymbolTable.lookup_register_of_lookup ok known, rfl⟩
    · rintro ⟨name, h', known, rfl⟩
      rcases SymbolTable.lookup_of_lookup_register ok known with ⟨_, rfl⟩ | old
      · exact Or.inl rfl
      · exact Or.inr ⟨name, h', old, rfl⟩
  distinct := h.distinct.register d.entity.id
  kept id n hn := h.kept id n (Ledger.usages_register s.ledger d.entity.id id ▸ hn)
  found x hx := by
    show x.location ∈ ((s.ledger.register d.entity.id).usages x.owner.id).map Node.location
    rw [Ledger.usages_register]
    exact h.found x hx
  settled := by
    rw [← h.settled]
    exact congrArg (· + _) (Ledger.total_register s.ledger d.entity.id)

variable [Recorder σ] {e : Event}

theorem accepted (h : Tracks s xs) (ok : Accepted s s' e) :
    Tracks s' (xs ++ reported s'.symbols e) := by
  cases ok with
  | @committed r path code told store hpath quiet ok done =>
    have same := h.quiet quiet
    rw [done]
    show Tracks _ (xs ++ [])
    rw [List.append_nil]
    exact ⟨same.owners, same.entries, same.distinct, same.kept, same.found, same.settled⟩
  | @declared _ d t hd ok done =>
    rw [done.symbols]
    exact (h.enter ok).effect done fun y hy => (mem_identities_reported hy).1
  | @completed r c owner t hc ok done =>
    -- completing a class leaves every name where it leads
    have names := SymbolTable.lookup_congr (SymbolTable.entries_of_resolveClass ok)
    have moved : Tracks { s with symbols := t } xs := by
      refine ⟨?_, ?_, h.distinct, h.kept, h.found, h.settled⟩
      · exact fun x hx => names ▸ h.owners x hx
      · exact fun id => names ▸ h.entries id
    rw [done.symbols]
    exact moved.effect done fun y hy => (mem_identities_reported hy).1
  | @imported r path importer found done =>
    rw [done]
    show Tracks _ (xs ++ [])
    rw [List.append_nil]
    refine imports_induction (P := fun s => Tracks s xs) h (fun _ _ h quiet => h.quiet quiet) ?_
    intro entry _ _ _ h ⟨_, _, _, _, added⟩
    have tracked := h.effect added fun _ hy => nomatch hy
    rwa [List.append_nil] at tracked

/-- One event extends what is tracked by what it reports. -/
theorem ingest (h : Tracks s xs) (e : Event) : Tracks (s.ingest e) (xs ++ s.reportsOf e) := by
  unfold reportsOf
  rcases ingest_cases s e with ⟨refused, quiet⟩ | ⟨taken, ok⟩
  · rw [if_pos refused, List.append_nil]
    exact h.quiet quiet
  · rw [if_neg (by rw [taken]; decide)]
    exact (h.quiet (effect_counted s e)).accepted ok

theorem run (h : Tracks s xs) (events : List Event) :
    Tracks (s.run events) (xs ++ s.reportedAmong events) := by
  induction events generalizing s xs with
  | nil =>
    show Tracks s (xs ++ [])
    rwa [List.append_nil]
  | cons e events ih =>
    show Tracks ((s.ingest e).run events) (xs ++ (s.reportsOf e ++ (s.ingest e).reportedAmong events))
    rw [← List.append_assoc]
    exact ih (h.ingest e)

end Tracks

variable [Recorder σ]

/-- **No usage is lost and none is kept twice.** If the entities that the events of a run name have
distinct identifiers, then after the run every registered entity has pairwise distinct locations in the
ledger, these are the complete places that accepted events reported for it, and each is recorded as a
usage of the entity. The ledger has entries for the registered entities and no others, and every
reported usage was either kept or counted as a duplicate. -/
theorem usages_kept_once (store : σ) (options : Options) (events : List Event)
    (apart : Apart .entity (events.flatMap identities)) :
    let s := (begin store options).run events
    let reports := (begin store options).reportedAmong events
    (∀ name h, s.symbols.lookup name = some h →
      ((s.ledger.usages h.id).map Node.location).Nodup ∧
      (∀ location, location ∈ (s.ledger.usages h.id).map Node.location ↔
        ∃ x ∈ reports, x.name = name ∧ x.location = location) ∧
      ∀ n ∈ s.ledger.usages h.id, n = Node.usage name h.kind.symbolType n.location) ∧
    (∀ id, s.ledger.contains id = true ↔ ∃ name h, s.symbols.lookup name = some h ∧ h.id = id) ∧
    s.ledger.total + s.stats.duplicateUsages = reports.length := by
  intro s reports
  -- owners are tracked by identifier; that names and identifiers agree is what `apart` adds
  have tracked : Tracks s reports := (Tracks.begin store options).run events
  have within : Within (· ∈ events.flatMap identities) s :=
    (Within.begin store options).run fun _ hi => hi
  refine ⟨?_, tracked.entries, tracked.settled⟩
  intro name h known
  have same {other : String} {h' : Handle} (known' : s.symbols.lookup other = some h') :=
    owner_id_eq_iff within apart known known'
  refine ⟨tracked.distinct h.id, ?_, ?_⟩
  · intro location
    constructor
    · intro recorded
      obtain ⟨n, hn, rfl⟩ := List.mem_map.mp recorded
      obtain ⟨x, hx, owned, rfl⟩ := tracked.kept h.id n hn
      exact ⟨x, hx, ((same (tracked.owners x hx)).mp owned).1, rfl⟩
    · rintro ⟨x, hx, rfl, rfl⟩
      have owner : x.owner = h := Option.some.inj ((tracked.owners x hx).symm.trans known)
      exact owner ▸ tracked.found x hx
  · intro n hn
    obtain ⟨x, hx, owned, rfl⟩ := tracked.kept h.id n hn
    obtain ⟨rfl, rfl⟩ := (same (tracked.owners x hx)).mp owned
    rfl

/-- A variable `c.x` with a usage of its own and two as an attribute of `c`, one of them at the same
place: all three are accounted for. -/
theorem attribute_usages_kept_once :
    let place (line : UInt32) : Option Place :=
      some ⟨some "/a.py", some ⟨some ⟨line, 0⟩, some ⟨line, 3⟩⟩⟩
    let events : List Event := [
      .classPreprocessed ⟨some "c", some "c", place 1, none⟩,
      .variable ⟨some "x", some "c.x", place 2, none, some [], some [⟨place 3⟩]⟩,
      .classResolved ⟨some "c", some "", some [],
        some { attributes := [⟨"c.x", [⟨place 3⟩, ⟨place 4⟩]⟩] }, some []⟩]
    let id := entityId .variable "c.x"
    Apart .entity (events.flatMap identities) ∧
      ((((begin Store.empty {}).run events).ledger.usages id).map Node.location).Nodup ∧
      ((begin Store.empty {}).run events).ledger.total +
        ((begin Store.empty {}).run events).stats.duplicateUsages = 3 := by
  intro place events id
  have apart : Apart .entity (events.flatMap identities) := by decide +kernel
  obtain ⟨usages, _, settled⟩ := usages_kept_once Store.empty {} events apart
  have known : (((begin Store.empty {}).run events).symbols.lookup "c.x").map Handle.id = some id := by
    decide +kernel
  have count : ((begin Store.empty {}).reportedAmong events).length = 3 := by decide +kernel
  obtain ⟨h, found, same⟩ := Option.map_eq_some_iff.mp known
  have distinct := (usages "c.x" h found).1
  rw [same] at distinct
  exact ⟨apart, distinct, settled.trans count⟩

end SymbolIndex.Session
