import SymbolIndex.Session.Flush
import SymbolIndex.Session.Ingest

/-!
# `Proofs.Session.Run` — runs of a session

A run feeds a list of events to a session, one after another. Whether an event is taken in depends on
the session that it meets, so the events of a run that are taken in, and those that are refused, are
found by walking along the run.

## Contents
- `Session.run`, `run_concat`; `ingestAll_events`: a stream of events is a run; `ingestAll_append`.
- `Session.refuses`: whether a session refuses an event; `ingest_of_accept`, `accept_cases`.
- `acceptedAmong`, `refusedAmong`: the events of a run by their fate.
-/

namespace SymbolIndex.Session

variable {σ : Type} [Recorder σ]

/-- The session after a list of events. -/
def run (s : Session σ) (events : List Event) : Session σ :=
  events.foldl ingest s

/-- The last event of a run meets the session that the others leave. -/
theorem run_concat (s : Session σ) (events : List Event) (e : Event) :
    s.run (events ++ [e]) = (s.run events).ingest e :=
  List.foldl_append

/-- A stream that holds nothing but events is a run. -/
theorem ingestAll_events (s : Session σ) (items : List (Nat × Event)) :
    s.ingestAll (items.map fun item => ⟨item.1, .ok item.2⟩) = s.run (items.map Prod.snd) := by
  unfold ingestAll run
  rw [List.foldl_map, List.foldl_map]
  rfl

theorem ingestAll_append (s : Session σ) (is js : List StreamItem) :
    s.ingestAll (is ++ js) = (s.ingestAll is).ingestAll js :=
  List.foldl_append

/-- The session that a handler meets: the event has been counted. -/
def counted (s : Session σ) (e : Event) : Session σ :=
  s.tally fun t => t.countEvent e.kind

/-- Whether a session refuses an event. -/
def refuses (s : Session σ) (e : Event) : Bool :=
  match accept e (s.counted e) with
  | .ok .. => false
  | .error .. => true

theorem ingest_of_accept {s s' : Session σ} {e : Event} (h : accept e (s.counted e) = .ok () s') :
    s.ingest e = s' ∧ s.refuses e = false := by
  unfold ingest refuses
  unfold counted at h ⊢
  rw [h]
  exact ⟨rfl, rfl⟩

/-- A session takes an event in or refuses it. -/
theorem accept_cases (s : Session σ) (e : Event) :
    (∃ s', accept e (s.counted e) = .ok () s') ∨
      ∃ err s', accept e (s.counted e) = .error err s' := by
  cases h : accept e (s.counted e) with
  | ok u s' => exact Or.inl ⟨s', rfl⟩
  | error err s' => exact Or.inr ⟨err, s', rfl⟩

theorem refuses_eq_false_iff {s : Session σ} {e : Event} :
    s.refuses e = false ↔ ∃ s', accept e (s.counted e) = .ok () s' := by
  constructor
  · intro taken
    rcases accept_cases s e with ok | ⟨err, s', refused⟩
    · exact ok
    · unfold refuses at taken
      rw [refused] at taken
      cases taken
  · rintro ⟨s', ok⟩
    exact (ingest_of_accept ok).2

/-- The events of a run that are taken in. -/
def acceptedAmong (s : Session σ) : List Event → List Event
  | [] => []
  | e :: events =>
    if s.refuses e then (s.ingest e).acceptedAmong events
    else e :: (s.ingest e).acceptedAmong events

/-- The events of a run that are refused. -/
def refusedAmong (s : Session σ) : List Event → List Event
  | [] => []
  | e :: events =>
    if s.refuses e then e :: (s.ingest e).refusedAmong events
    else (s.ingest e).refusedAmong events

end SymbolIndex.Session
