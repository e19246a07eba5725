import SymbolIndex.Proofs.Session.Rounds
import SymbolIndex.Proofs.Store.Commit

/-!
# `Proofs.Session.Announced` — announced files and the store

A file event is the one kind of event that reaches the store before the end of a session, and nothing
else decides on it but the store. So what a session has done to its store so far can be told from the
files that its events announce: over a store that only sessions have written they are committed one
after another, as far as the numbers of build actions go.

## Contents
- `announced?`; `ingest_announced`, `ingest_of_not_announced`: what a file event does, and no other.
- `store_kept`: what each commit keeps, a run keeps.
- `Ready`: every file will be committed; `Ready.store_run`, `Ready.isAnnounced_run`.
- `tidy_rounds`: the stores that rounds of sessions leave.
-/

namespace SymbolIndex

open Store Session

namespace Session

variable {σ : Type} [Recorder σ] {s s' : Session σ} {e : Event} {f : File}

/-! ## One event -/

/-- The file that an event announces, if its record is complete. -/
def announced? : Event → Option File
  | .file r => do some (announcedFile (← nonEmpty r.path) (← r.status))
  | _ => none

theorem announced?_eq_some_iff : announced? e = some f ↔ ∃ r path code, e = .file r ∧
    nonEmpty r.path = some path ∧ r.status = some code ∧ announcedFile path code = f := by
  cases e with
  | file r =>
    simp only [announced?, Option.bind_eq_bind, Option.bind_eq_some_iff, Option.some.injEq]
    constructor
    · rintro ⟨path, hp, code, hc, rfl⟩
      exact ⟨r, path, code, rfl, hp, hc, rfl⟩
    · rintro ⟨_, path, code, same, hp, hc, rfl⟩
      cases same
      exact ⟨path, hp, code, hc, rfl⟩
  | _ => simp [announced?]

theorem announced?_id (h : announced? e = some f) : f.id = fileId f.path := by
  obtain ⟨_, path, code, rfl, _, _, rfl⟩ := announced?_eq_some_iff.mp h
  rfl

/-- A file event without a complete record is refused. -/
theorem announced?_of_taken {r : FileReport} (taken : s.refuses (.file r) = false) :
    ∃ f, announced? (.file r) = some f := by
  obtain ⟨s', ok⟩ := refuses_eq_false_iff.mp taken
  obtain ⟨path, code, _, hp, hc, _, _⟩ := acceptFile_eq_ok.mp ok
  exact ⟨_, announced?_eq_some_iff.mpr ⟨r, path, code, rfl, hp, hc, rfl⟩⟩

/-- **An announced file is committed or refused**, and that is up to the store. -/
theorem ingest_announced (h : announced? e = some f) :
    (∃ err, Recorder.persistFile s.store f {} = .error err ∧ s.refuses e = true) ∨
      ∃ store, Recorder.persistFile s.store f {} = .ok store ∧ s.refuses e = false ∧
        ∃ log, s.ingest e = { s.counted e with
          store
          sources := (s.sources.setStatus f.path f.status).announce f.id
          log } := by
  obtain ⟨r, path, code, rfl, hp, hc, rfl⟩ := announced?_eq_some_iff.mp h
  cases committed : Recorder.persistFile s.store (announcedFile path code) {} with
  | error err =>
    refine Or.inl ⟨err, rfl, Bool.of_not_eq_false fun taken => ?_⟩
    obtain ⟨s', ok⟩ := refuses_eq_false_iff.mp taken
    obtain ⟨path', code', store, hp', hc', ok, _⟩ := acceptFile_eq_ok.mp ok
    cases hp.symm.trans hp'
    cases hc.symm.trans hc'
    cases committed.symm.trans ok
  | ok store =>
    obtain ⟨ingested, taken⟩ := ingest_of_accept (s := s) (e := .file r)
      (acceptFile_eq_ok.mpr ⟨path, code, store, hp, hc, committed, rfl⟩)
    refine Or.inr ⟨store, rfl, taken, ?_⟩
    -- a warning of the code shows in the log alone
    rw [ingested]
    unfold warnOfCode
    split <;> exact ⟨_, rfl⟩

/-- An event that announces no file commits none. -/
theorem ingest_of_not_announced (h : announced? e = none) :
    (s.ingest e).store = s.store ∧ ∀ id, (s.ingest e).sources.isAnnounced id = s.sources.isAnnounced id := by
  let Same (t : Session σ) : Prop :=
    t.store = s.store ∧ ∀ id, t.sources.isAnnounced id = s.sources.isAnnounced id
  have effect : ∀ {t t' : Session σ} {paths xs g}, Same t → Effect t t' paths xs g → Same t' := by
    intro t t' paths xs g same done
    refine ⟨done.store.trans same.1, fun id => ?_⟩
    rw [done.sources, SourceTable.isAnnounced_registerAll]
    exact same.2 id
  show Same (s.ingest e)
  rcases ingest_cases s e with ⟨_, quiet⟩ | ⟨taken, ok⟩
  · exact effect ⟨rfl, fun _ => rfl⟩ quiet
  · have counted : Same (s.counted e) := effect ⟨rfl, fun _ => rfl⟩ (effect_counted s e)
    cases ok with
    | @committed r path code told store hpath quiet ok done =>
      obtain ⟨f, announced⟩ := announced?_of_taken taken
      cases h.symm.trans announced
    | @declared _ d t hd ok done =>
      have entered : Same ((s.counted e).enter d.declaration t) := counted
      exact effect entered done
    | @completed r c owner t hc ok done =>
      have moved : Same { s.counted (.classResolved r) with symbols := t } := counted
      exact effect moved done
    | @imported r path importer found done =>
      rw [done]
      exact imports_induction (P := Same) counted (fun _ _ same quiet => effect same quiet)
        fun _ _ _ _ same ⟨_, _, _, _, added⟩ => effect same added

theorem store_ingest_of_not_announced (h : announced? e = none) : (s.ingest e).store = s.store :=
  (ingest_of_not_announced h).1

/-- **What each commit keeps of a store, a session keeps.** -/
theorem store_kept {P : σ → Prop} (kept : ∀ {store store' : σ} {f : File}, P store →
    f.id = fileId f.path → Recorder.persistFile store f {} = .ok store' → P store') (h : P s.store)
    (events : List Event) : P (s.run events).store := by
  induction events generalizing s with
  | nil => exact h
  | cons e events ih =>
    refine ih ?_
    cases announced : announced? e with
    | none => exact store_ingest_of_not_announced (s := s) announced ▸ h
    | some f =>
      rcases ingest_announced (s := s) announced with ⟨_, _, refused⟩ | ⟨store, ok, _, _, ingested⟩
      · obtain ⟨_, ingested⟩ := ingest_refused refused
        rw [ingested]
        exact h
      · rw [ingested]
        exact kept h (announced?_id announced) ok

/-! ## Stores that sessions have written -/

/-- Whatever events it takes, a session leaves its store tidy. -/
theorem tidy_run {s : Session Store} (h : s.store.Tidy) (events : List Event) :
    (s.run events).store.Tidy :=
  store_kept (fun tidy hf ok => (tidy.of_persistFile hf ok).2) h events

/-- A store that only sessions have written, with a number left for every file that some events
announce. -/
structure Ready (store : Store) (events : List Event) : Prop where
  tidy : store.Tidy
  room : (store.lastAction + (events.filterMap announced?).length : Nat) ≤ lastNumber

namespace Ready

variable {s : Session Store} {events : List Event}

/-- A store with a number left commits the file that comes next. -/
theorem ingest_announced (h : Ready s.store (e :: events)) (announced : announced? e = some f) :
    s.refuses e = false ∧ ∃ log, s.ingest e = { s.counted e with
      store := s.store.commit f
      sources := (s.sources.setStatus f.path f.status).announce f.id
      log } := by
  have room := h.room
  rw [List.filterMap_cons_some announced, List.length_cons] at room
  have ok : Recorder.persistFile s.store f {} = .ok (s.store.commit f) :=
    (h.tidy.persistFile (announced?_id announced)).trans (if_pos (by omega))
  rcases Session.ingest_announced (s := s) announced with ⟨_, failed, _⟩ | ⟨_, ok', taken, ingested⟩
  · cases ok.symm.trans failed
  · cases ok.symm.trans ok'
    exact ⟨taken, ingested⟩

/-- The numbers that are left once the file is committed suffice for the files after it. -/
theorem ingest (h : Ready s.store (e :: events)) : Ready (s.ingest e).store events := by
  have room := h.room
  cases announced : announced? e with
  | none =>
    rw [List.filterMap_cons_none announced] at room
    rw [store_ingest_of_not_announced announced]
    exact ⟨h.tidy, room⟩
  | some f =>
    rw [List.filterMap_cons_some announced, List.length_cons] at room
    obtain ⟨_, _, ingested⟩ := h.ingest_announced announced
    rw [ingested]
    refine ⟨h.tidy.commit (announced?_id announced), ?_⟩
    show ((s.store.lastAction + 1 + (events.filterMap announced?).length : Nat) : Int) ≤ _
    omega

/-- **While numbers last, every announced file is committed** in its turn, and that is all that happens
to the store before the batch. -/
theorem store_run (h : Ready s.store events) :
    (s.run events).store = (events.filterMap announced?).foldl commit s.store := by
  induction events generalizing s with
  | nil => rfl
  | cons e events ih =>
    show ((s.ingest e).run events).store = _
    rw [ih h.ingest]
    cases announced : announced? e with
    | none => rw [List.filterMap_cons_none announced, store_ingest_of_not_announced announced]
    | some f =>
      obtain ⟨_, _, ingested⟩ := h.ingest_announced announced
      rw [List.filterMap_cons_some announced, ingested]
      rfl

/-- The files that are announced are those of the events that are taken in. -/
theorem announced_acceptedAmong (h : Ready s.store events) :
    (s.acceptedAmong events).filterMap announced? = events.filterMap announced? := by
  induction events generalizing s with
  | nil => rfl
  | cons e events ih =>
    have rest := ih h.ingest
    unfold acceptedAmong
    cases announced : announced? e with
    | none =>
      rw [List.filterMap_cons_none announced]
      split
      · exact rest
      · rw [List.filterMap_cons_none announced]
        exact rest
    | some f =>
      have taken := (h.ingest_announced announced).1
      rw [if_neg (Bool.eq_false_iff.mp taken), List.filterMap_cons_some announced,
        List.filterMap_cons_some announced, rest]

end Ready

/-- Each file event that is taken in announces one file. -/
theorem length_announced_acceptedAmong (s : Session σ) (events : List Event) :
    ((s.acceptedAmong events).filterMap announced?).length =
      (s.acceptedAmong events).countP fun e => e.kind = .file := by
  induction events generalizing s with
  | nil => rfl
  | cons e events ih =>
    have rest := ih (s.ingest e)
    unfold acceptedAmong
    split
    · exact rest
    · rename_i taken
      rw [List.countP_cons, ← rest]
      cases e with
      | file r =>
        obtain ⟨f, announced⟩ := announced?_of_taken (Bool.eq_false_iff.mpr taken)
        rw [List.filterMap_cons_some announced]
        rfl
      | _ => rfl

/-- What has been announced stays announced. -/
theorem invariant_isAnnounced (id : FileId) :
    Invariant (fun _ => True) fun s : Session σ => s.sources.isAnnounced id = true := by
  have effect : ∀ {s s' : Session σ} {paths xs g}, s.sources.isAnnounced id = true →
      Effect s s' paths xs g → s'.sources.isAnnounced id = true := by
    intro s s' paths xs g h done
    rw [done.sources, SourceTable.isAnnounced_registerAll]
    exact h
  refine ⟨effect, ?_⟩
  intro s s' e h _ ok
  cases ok with
  | @committed r path code told store hpath quiet ok done =>
    rw [done]
    exact (SourceTable.isAnnounced_announce _ _ id).mpr (Or.inr (effect h quiet))
  | @declared _ d t hd ok done =>
    have entered : (s.enter d.declaration t).sources.isAnnounced id = true := h
    exact effect entered done
  | @completed r c owner t hc ok done =>
    have moved : ({ s with symbols := t } : Session σ).sources.isAnnounced id = true := h
    exact effect moved done
  | @imported r path importer found done =>
    rw [done]
    exact imports_induction h (fun _ _ h quiet => effect h quiet)
      fun _ _ _ _ h ⟨_, _, _, _, added⟩ => effect h added

/-- Every file that has been committed counts as announced. -/
theorem Ready.isAnnounced_run {s : Session Store} {events : List Event} (h : Ready s.store events)
    (hf : f ∈ events.filterMap announced?) : (s.run events).sources.isAnnounced f.id = true := by
  induction events generalizing s with
  | nil => cases hf
  | cons e events ih =>
    cases announced : announced? e with
    | none =>
      rw [List.filterMap_cons_none announced] at hf
      exact ih h.ingest hf
    | some g =>
      rw [List.filterMap_cons_some announced] at hf
      rcases List.mem_cons.mp hf with rfl | later
      · refine (invariant_isAnnounced f.id).run (s := s.ingest e) ?_ fun _ _ => trivial
        obtain ⟨_, _, ingested⟩ := h.ingest_announced announced
        rw [ingested]
        exact (SourceTable.isAnnounced_announce _ _ _).mpr (Or.inl rfl)
      · exact ih h.ingest later

end Session

theorem Round.tidy {s : Store} (r : Round) (h : s.Tidy) : (r.store s).Tidy := by
  have committed := store_kept (s := begin (⟨s, r.refusesFiles, r.ending = .failed⟩ : Restricted)
    r.options) (P := fun store => store.store.Tidy)
    (fun tidy hf ok => (tidy.of_persistFile hf (Restricted.persistFile_eq_ok ok)).2) h r.events
  have coherent := (Coherent.begin (⟨s, r.refusesFiles, r.ending = .failed⟩ : Restricted)
    r.options).run r.events
  unfold Round.store
  dsimp only
  split
  · exact committed
  · rcases store_finalize committed.whole with failed | flushed
    · rw [failed]
      exact committed
    · rw [flushed]
      exact committed.writeAll fun f hf => coherent.sources.id_of_mem_unannounced hf

/-- Sessions one after another leave a tidy store. -/
theorem tidy_rounds (rounds : List Round) {s : Store} (h : s.Tidy) :
    (rounds.foldl (fun s r => r.store s) s).Tidy := by
  induction rounds generalizing s with
  | nil => exact h
  | cons r rounds ih => exact ih (r.tidy h)

end SymbolIndex
