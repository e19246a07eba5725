import SymbolIndex.Proofs.Store.Intact

/-!
# `Proofs.Session.Rounds` — sessions one after another

A store outlives its sessions. A session that is discarded or whose batch fails leaves the files that it
committed; one that is finalized leaves its batch too, or as much of it as does not clash with the rows
of earlier sessions. Whatever came before, no row dangles (`no_row_dangles`).

What is in the store and what is in the session meet in one place: a file that a session counts as
announced is not part of its batch, so it has to be in the store already (`Committed`).

## Contents
- `Ending`, `Round`: a session from its beginning to its end.
- `Committed`, kept by each event; `finalize_sound`.
- `no_row_dangles`.
-/

namespace SymbolIndex

open Store Session

/-- What becomes of a session once its events are through. -/
inductive Ending where
  | finalized
  | discarded
  /-- The store refuses the batch. -/
  | failed
  deriving DecidableEq, Repr

/-- A session from its beginning to its end. -/
structure Round where
  options : Options := {}
  events : List Event := []
  /-- Whether the store refuses to commit files. -/
  refusesFiles : Bool := false
  ending : Ending := .finalized

/-- The store after a session on it. -/
def Round.store (r : Round) (s : Store) : Store :=
  let session := (begin (⟨s, r.refusesFiles, r.ending = .failed⟩ : Restricted) r.options).run r.events
  match r.ending with
  | .discarded => session.store.store
  | _ => session.finalize.store.store

/-- What every store has that sessions have written. -/
structure Sound (s : Store) : Prop where
  whole : s.Whole
  filed : s.Filed
  intact : s.Intact

theorem sound_empty : Sound empty :=
  ⟨whole_empty, filed_empty, intact_empty⟩

/-- The store that takes a file is the one below the restriction, and the restriction stays. -/
theorem Restricted.of_persistFile {r r' : Restricted} {f : File} {action : BuildAction}
    (ok : r.persistFile f action = .ok r') :
    r.store.persistFile f action = .ok r'.store ∧ r' = { r with store := r'.store } := by
  unfold Restricted.persistFile at ok
  split at ok
  · cases ok
  · cases below : r.store.persistFile f action with
    | error err => rw [below] at ok; cases ok
    | ok store =>
      rw [below] at ok
      cases ok
      exact ⟨rfl, rfl⟩

/-- A store that refuses at times does what any store does when it does not. -/
theorem Restricted.persistFile_eq_ok {r r' : Restricted} {f : File} {action : BuildAction}
    (ok : r.persistFile f action = .ok r') : r.store.persistFile f action = .ok r'.store :=
  (of_persistFile ok).1

/-- A sound store stays so when a file is committed under the identifier of its path. -/
theorem Sound.persistFile {s s' : Store} {f : File} {action : BuildAction} (h : Sound s)
    (hf : f.id = fileId f.path) (ok : s.persistFile f action = .ok s') : Sound s' :=
  ⟨h.whole.persistFile ok, h.filed.persistFile hf ok, h.intact.persistFile ok⟩

namespace Session

variable {s s' : Session Restricted}

/-- The store is sound and holds every file that counts as announced. -/
structure Committed (s : Session Restricted) : Prop where
  sound : Sound s.store.store
  announced : ∀ id, s.sources.isAnnounced id = true → ∃ r ∈ s.store.store.files, r.id = id

namespace Committed

theorem begin (store : Restricted) (options : Options) (h : Sound store.store) :
    Committed (begin store options) where
  sound := h
  announced _ h := nomatch h

theorem effect {paths : List String} {xs : List Sighting} {g : Graph} (h : Committed s)
    (done : Effect s s' paths xs g) : Committed s' := by
  refine ⟨done.store ▸ h.sound, ?_⟩
  rw [done.sources, done.store]
  intro id announced
  exact h.announced id (SourceTable.isAnnounced_registerAll s.sources paths id ▸ announced)

/-- An announced file is committed before it counts as announced. -/
theorem announce {store : Restricted} {f : File} (h : Committed s) (hf : f.id = fileId f.path)
    (ok : Recorder.persistFile s.store f {} = .ok store) : Committed (s.announce store f) := by
  have taken := Restricted.persistFile_eq_ok ok
  refine ⟨h.sound.persistFile hf taken, ?_⟩
  obtain ⟨files, _, _, _, committed, same⟩ := persistFile_eq_ok taken
  intro id announced
  have either := (SourceTable.isAnnounced_announce _ f.id id).mp announced
  show ∃ r ∈ store.store.files, r.id = id
  rw [same]
  rcases either with rfl | before
  · exact (commitFile_eq_ok committed).2.1
  · obtain ⟨r, hr, rfl⟩ := h.announced id before
    exact (commitFile_eq_ok committed).1 r hr

/-- Only file events touch the store. -/
theorem accepted {e : Event} (h : Committed s) (ok : Accepted s s' e) : Committed s' := by
  cases ok with
  | @committed r path code told store hpath quiet ok done =>
    rw [done]
    exact (h.effect quiet).announce rfl (quiet.store ▸ ok)
  | @declared _ d t hd ok done =>
    have entered : Committed (s.enter d.declaration t) := ⟨h.sound, h.announced⟩
    exact entered.effect done
  | @completed r c owner t hc ok done =>
    have moved : Committed { s with symbols := t } := ⟨h.sound, h.announced⟩
    exact moved.effect done
  | @imported r path importer found done =>
    rw [done]
    refine imports_induction h (fun _ _ h quiet => h.effect quiet) ?_
    intro entry _ _ _ h ⟨_, _, _, _, added⟩
    exact h.effect added

theorem invariant : Invariant (fun _ => True) Committed where
  quiet h done := h.effect done
  accepted h _ ok := h.accepted ok

theorem run (h : Committed s) (events : List Event) : Committed (s.run events) :=
  invariant.run h fun _ _ => trivial

end Committed

/-! ## The end of a session -/

/-- The graph that is written points at itself and at known files. -/
theorem points_finalGraph {σ : Type} {s : Session σ} (h : Coherent s.graph s) :
    s.finalGraph.PointsInto s.finalGraph s.sources.Knows := by
  have entities : ∀ kind, s.finalGraph.entities kind = s.graph.entities kind := by
    intro kind
    cases kind <;> rfl
  have same : s.graph.PointsInto s.finalGraph s.sources.Knows := by
    refine h.points.mono ?_ (fun _ held => held) fun _ known => known
    intro kind id held
    unfold Graph.Has
    rwa [entities]
  exact { same with
    nodes := fun n hn => (List.mem_append.mp hn).elim
      (fun declared => same.nodes n (List.mem_append_left _ declared)) (h.usages n)
    entities := fun kind e he => same.entities kind e (entities kind ▸ he) }

/-- A known file is in the store or among the files that the batch brings. -/
theorem known_committed_or_unannounced (h : Committed s) {id : FileId} (known : s.sources.Knows id) :
    s.store.store.HasFile (.ofId id) ∨ ∃ f ∈ s.sources.unannounced, f.id = id := by
  obtain ⟨path, f, found, rfl⟩ := known
  cases announced : s.sources.isAnnounced f.id with
  | true =>
    obtain ⟨r, hr, same⟩ := h.announced f.id announced
    exact Or.inl ⟨r, hr, same ▸ rfl⟩
  | false => exact Or.inr ⟨f, SourceTable.mem_unannounced_iff.mpr ⟨⟨path, found⟩, announced⟩, rfl⟩

/-- **A batch on a whole store is written, unless the restriction refuses it.** -/
theorem finalize_cases (whole : s.store.store.Whole) :
    (s.store.refusesBatches = true ∧
      ∃ err, s.finalize.outcome = .error err ∧ s.finalize.store = s.store) ∨
    (s.store.refusesBatches = false ∧
      ∃ report, s.finalize.outcome = .ok report ∧ s.finalize.store = { s.store with
        store := (Batch.writeAll { store := s.store.store } s.sources.unannounced s.finalGraph).store }) := by
  have outcome : Recorder.persistBatch s.store s.sources.unannounced s.finalGraph =
      Restricted.persistBatch s.store s.sources.unannounced s.finalGraph := rfl
  unfold finalize
  dsimp only [tell]
  rw [outcome]
  unfold Restricted.persistBatch Store.persistBatch
  rw [runBatch_of_whole whole]
  cases s.store.refusesBatches with
  | true => exact Or.inl ⟨rfl, _, rfl, rfl⟩
  | false => exact Or.inr ⟨rfl, _, rfl, rfl⟩

/-- A flush leaves the store as it was, or with the whole batch in it. -/
theorem store_finalize (whole : s.store.store.Whole) : s.finalize.store.store = s.store.store ∨
    s.finalize.store.store =
      (Batch.writeAll { store := s.store.store } s.sources.unannounced s.finalGraph).store := by
  rcases finalize_cases whole with ⟨_, _, _, failed⟩ | ⟨_, _, _, flushed⟩
  · exact Or.inl (congrArg Restricted.store failed)
  · exact Or.inr (congrArg Restricted.store flushed)

/-- A batch that is written leaves the store sound, and so does one that fails. -/
theorem finalize_sound (h : Committed s) (coherent : Coherent s.graph s) :
    Sound s.finalize.store.store := by
  have hf : ∀ f ∈ s.sources.unannounced, f.id = fileId f.path :=
    fun f hf => coherent.sources.id_of_mem_unannounced hf
  have written : Sound (Batch.writeAll { store := s.store.store } s.sources.unannounced
      s.finalGraph).store := by
    refine ⟨?_, ?_, ?_⟩
    · rw [Batch.store_writeAll]
      exact ⟨h.sound.whole.missing, h.sound.whole.writable, h.sound.whole.rooms⟩
    · exact Filed.writeAll (b := { store := s.store.store }) h.sound.filed hf
    · exact Intact.writeAll (b := { store := s.store.store }) h.sound.intact h.sound.filed hf
        (points_finalGraph coherent) fun id known => known_committed_or_unannounced h known
  rcases store_finalize h.sound.whole with failed | flushed
  · rw [failed]
    exact h.sound
  · rw [flushed]
    exact written

end Session

/-- **A round leaves a sound store sound**, however it ends. -/
theorem Round.sound {s : Store} (r : Round) (h : Sound s) : Sound (r.store s) := by
  have committed := (Committed.begin ⟨s, r.refusesFiles, r.ending = .failed⟩ r.options h).run r.events
  have coherent := (Coherent.begin (⟨s, r.refusesFiles, r.ending = .failed⟩ : Restricted)
    r.options).run r.events
  unfold Round.store
  dsimp only
  split
  · exact committed.sound
  · exact finalize_sound committed coherent

/-- **No row dangles.** However many sessions an empty store goes through one after another, whatever
events each of them is fed, and whether it is finalized, discarded or fails at its batch: every column
of identifiers refers to rows that are there. -/
theorem no_row_dangles (rounds : List Round) :
    (rounds.foldl (fun s r => r.store s) Store.empty).Intact := by
  -- a sound store is what one session hands to the next
  have sound : ∀ s : Store, Sound s → Sound (rounds.foldl (fun s r => r.store s) s) := by
    induction rounds with
    | nil => exact fun s h => h
    | cons r rounds ih => exact fun s h => ih (r.store s) (r.sound h)
  exact (sound Store.empty sound_empty).intact

end SymbolIndex
