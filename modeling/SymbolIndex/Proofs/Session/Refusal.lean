import SymbolIndex.Proofs.Session.Counters

/-!
# `Proofs.Session.Refusal` — a refused event leaves no trace

A handler works on the session in place, and nothing undoes what it did before an error. That a
refused event changes nothing is therefore a property of the order in which the handlers work: every
check stands before the first change. `RefusesFirst` says so of one handler, and it is put together
along the steps of the handler: checks may be followed by anything that refuses first, and what
refuses first may be followed by anything that never refuses.

From there a whole run can do without its refused events (`run_acceptedAmong`): the session that never
saw them is the same but for their counts, since counts and log steer nothing.

## Contents
- `OnlyTold`, `Checks`, `RefusesFirst`, `NeverRefuses` and how they compose.
- `accept_refusesFirst`: all six handlers refuse first.
- `ingest_refused`, `run_acceptedAmong`, `refused_events_leave_no_trace`.
-/

namespace SymbolIndex.Session

variable {σ α β : Type}

/-- `s'` is `s` with more lines in its log. -/
def OnlyTold (s s' : Session σ) : Prop :=
  ∃ told, s' = { s with log := s.log ++ told }

theorem OnlyTold.refl (s : Session σ) : OnlyTold s s :=
  ⟨[], by rw [List.append_nil]⟩

/-- Telling twice is telling. -/
theorem OnlyTold.trans {a b c : Session σ} (hab : OnlyTold a b) (hbc : OnlyTold b c) :
    OnlyTold a c := by
  obtain ⟨first, rfl⟩ := hab
  obtain ⟨second, rfl⟩ := hbc
  exact ⟨first ++ second, by rw [List.append_assoc]⟩

namespace Handler

/-- The session in which a handler ends. -/
def final : EStateM.Result Error (Session σ) α → Session σ
  | .ok _ s => s
  | .error _ s => s

/-- Work that changes nothing but the log, whatever comes of it. -/
def Checks (x : Handler σ α) : Prop :=
  ∀ s, OnlyTold s (final (x s))

/-- Work that has changed nothing but the log when it refuses. -/
def RefusesFirst (x : Handler σ α) : Prop :=
  ∀ s err s', x s = .error err s' → OnlyTold s s'

/-- Work that cannot refuse. -/
def NeverRefuses (x : Handler σ α) : Prop :=
  ∀ s err s', x s ≠ .error err s'

/-- A handler may check first and then do what refuses first itself. -/
theorem Checks.bind {x : Handler σ α} {f : α → Handler σ β} (hx : Checks x)
    (hf : ∀ a, RefusesFirst (f a)) : RefusesFirst (x >>= f) := by
  intro s err s' h
  have told := hx s
  simp only [Bind.bind, EStateM.bind] at h
  cases ran : x s with
  | ok a t =>
    rw [ran] at h told
    exact told.trans (hf a t err s' h)
  | error err' t =>
    rw [ran] at h told
    cases h
    exact told

/-- After that it may do only what never refuses: **an effect is never followed by a refusal.** -/
theorem RefusesFirst.bind {x : Handler σ α} {f : α → Handler σ β} (hx : RefusesFirst x)
    (hf : ∀ a, NeverRefuses (f a)) : RefusesFirst (x >>= f) := by
  intro s err s' h
  simp only [Bind.bind, EStateM.bind] at h
  cases ran : x s with
  | ok a t =>
    rw [ran] at h
    exact absurd h (hf a t err s')
  | error err' t =>
    rw [ran] at h
    cases h
    exact hx s err s' ran

/-- A check changes nothing. -/
theorem checks_check (x : Except Error α) : Checks (check x : Handler σ α) := by
  intro s
  cases x with
  | ok a => exact OnlyTold.refl s
  | error err => exact OnlyTold.refl s

theorem checks_peek (f : Session σ → α) : Checks (peek f) :=
  fun s => OnlyTold.refl s

/-- A change of the session never refuses. -/
theorem neverRefuses_modify (f : Session σ → Session σ) :
    NeverRefuses (modify f : Handler σ PUnit) := by
  intro s err s' h
  cases h

theorem NeverRefuses.refusesFirst {x : Handler σ α} (hx : NeverRefuses x) : RefusesFirst x :=
  fun s err s' h => absurd h (hx s err s')

end Handler

open Handler

/-! ## The handlers -/

/-- A declaration is registered before it enters the session. -/
theorem declare_refusesFirst (d : Declaration) : RefusesFirst (declare d : Handler σ Unit) :=
  (checks_peek _).bind fun _ => (checks_check _).bind fun _ => (neverRefuses_modify _).refusesFirst

/-- A warning is told, and that is all. -/
theorem warnOfCode_checks (path : String) (code : Int) :
    Checks (modify (warnOfCode path code) : Handler σ PUnit) := by
  intro s
  show OnlyTold s (warnOfCode path code s)
  unfold warnOfCode
  split
  · exact ⟨_, rfl⟩
  · exact OnlyTold.refl s

/-- **Every handler refuses first**: when it ends with an error, nothing but the log has changed. -/
theorem accept_refusesFirst [Recorder σ] (e : Event) : RefusesFirst (accept e : Handler σ Unit) := by
  cases e with
  | file r =>
    exact (checks_check _).bind fun path => (checks_check _).bind fun code =>
      (warnOfCode_checks path code).bind fun _ => (checks_peek _).bind fun _ =>
      (checks_check _).bind fun _ => (neverRefuses_modify _).refusesFirst
  | «variable» r =>
    exact (checks_check _).bind fun _ => (checks_check _).bind fun _ => (checks_check _).bind fun _ =>
      (checks_check _).bind fun _ => (checks_check _).bind fun _ =>
      (declare_refusesFirst _).bind fun _ => neverRefuses_modify _
  | function r =>
    exact (checks_check _).bind fun _ => (checks_check _).bind fun _ => (checks_check _).bind fun _ =>
      (checks_check _).bind fun _ => (checks_check _).bind fun _ => (checks_check _).bind fun _ =>
      (declare_refusesFirst _).bind fun _ => neverRefuses_modify _
  | classPreprocessed r =>
    exact (checks_check _).bind fun _ => (checks_check _).bind fun _ => (checks_check _).bind fun _ =>
      (declare_refusesFirst _).bind fun _ => neverRefuses_modify _
  | classResolved r =>
    -- the class is looked up and resolved on a copy of the table, which is kept only on success
    refine (checks_check _).bind fun _ => (checks_check _).bind fun _ => (checks_check _).bind fun _ =>
      (checks_check _).bind fun _ => (checks_check _).bind fun _ => (checks_peek _).bind fun _ =>
      (checks_check _).bind fun _ => RefusesFirst.bind ?_ fun _ => neverRefuses_modify _
    exact (neverRefuses_modify _).refusesFirst
  | «import» r =>
    exact (checks_check _).bind fun _ => (checks_check _).bind fun _ => (checks_check _).bind fun _ =>
      (checks_peek _).bind fun _ => (checks_check _).bind fun _ => (neverRefuses_modify _).refusesFirst

/-! ## One refused event -/

variable [Recorder σ]

/-- A refused event adds one to the count of its kind and one to the skipped records. -/
theorem ingest_refused {s : Session σ} {e : Event} (h : s.refuses e = true) :
    ∃ told, s.ingest e =
      { s with stats := (s.stats.countEvent e.kind).countSkipped, log := s.log ++ told } := by
  rcases accept_cases s e with ⟨s', accepted⟩ | ⟨err, s', refused⟩
  · rw [(ingest_of_accept accepted).2] at h
    cases h
  · obtain ⟨told, rfl⟩ := accept_refusesFirst e _ _ _ refused
    unfold Session.ingest
    unfold Session.counted at refused
    rw [refused]
    exact ⟨_, by simp only [tally, tell, List.append_assoc]; rfl⟩

/-! ## Runs without their refused events -/

/-- What a refused event adds to the counts. -/
def refusal (e : Event) : IngestStats :=
  (({} : IngestStats).countEvent e.kind).countSkipped

/-- What refused events add to the counts. -/
def refusals (events : List Event) : IngestStats :=
  events.foldr (fun e n => refusal e + n) {}

/-- A refused event shifts the counts. -/
theorem ingest_refused_shifted {s : Session σ} {e : Event} (h : s.refuses e = true) :
    Shifted (refusal e) s (s.ingest e) := by
  obtain ⟨told, ingested⟩ := ingest_refused h
  have counted : (s.stats.countEvent e.kind).countSkipped = s.stats + refusal e := by
    cases e with
    | _ => rfl
  exact ⟨s.log ++ told, by rw [ingested, counted]⟩

/-- **A run can do without its refused events**: the session that never saw them differs from the one
that did by the counts of the refusals, and by the log. -/
theorem run_acceptedAmong (s : Session σ) (events : List Event) :
    Shifted (refusals (s.refusedAmong events)) (s.run (s.acceptedAmong events)) (s.run events) := by
  induction events generalizing s with
  | nil => exact Shifted.refl s
  | cons e events ih =>
    unfold refusedAmong acceptedAmong
    split
    · rename_i refused
      exact ((ingest_refused_shifted refused).run _).trans (ih (s.ingest e))
    · exact ih (s.ingest e)

/-- **A refused event leaves no trace.** A handler that ends with an error has changed nothing but the
log; the event adds one to the count of its kind and one to the skipped records, and everything else
is as before. A whole run therefore ends as if its refused events had never come, and so does its
flush, but for what the refusals count. -/
theorem refused_events_leave_no_trace :
    (∀ (e : Event) (s : Session σ) (err : Error) (s' : Session σ),
      accept e s = .error err s' → ∃ told, s' = { s with log := s.log ++ told }) ∧
    (∀ (s : Session σ) (e : Event), s.refuses e = true → ∃ told, s.ingest e =
      { s with stats := (s.stats.countEvent e.kind).countSkipped, log := s.log ++ told }) ∧
    ∀ (s : Session σ) (events : List Event),
      let kept := s.run (s.acceptedAmong events)
      let all := s.run events
      let counts := refusals (s.refusedAmong events)
      (∃ log, all = { kept with stats := kept.stats + counts, log }) ∧
        all.finalize.store = kept.finalize.store ∧
        all.finalize.outcome =
          kept.finalize.outcome.map fun r => { r with ingest := r.ingest + counts } := by
  refine ⟨fun e => accept_refusesFirst e, fun s e h => ingest_refused h, ?_⟩
  intro s events
  have shifted := run_acceptedAmong s events
  exact ⟨shifted, shifted.finalize⟩

/-- A variable `a`, then a function of the same name that sits in another file. -/
theorem refused_duplicate_leaves_no_trace :
    let place (file : String) : Option Place := some ⟨some file, some ⟨some ⟨1, 0⟩, some ⟨1, 1⟩⟩⟩
    let s := (begin Store.empty {}).run
      [.variable ⟨some "a", some "a", place "/a.py", none, some [], some []⟩]
    let e : Event :=
      .function ⟨some "a", some "a", place "/b.py", none, some [], some [⟨place "/c.py"⟩], some "", [],
        []⟩
    s.refuses e = true ∧ ∃ told, s.ingest e =
      { s with stats := (s.stats.countEvent e.kind).countSkipped, log := s.log ++ told } := by
  intro place s e
  have refused : s.refuses e = true := by decide +kernel
  exact ⟨refused, refused_events_leave_no_trace.2.1 s e refused⟩

end SymbolIndex.Session
