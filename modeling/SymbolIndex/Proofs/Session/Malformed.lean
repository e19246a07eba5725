import SymbolIndex.Proofs.Event.Malformed
import SymbolIndex.Proofs.Session.Contribution
import SymbolIndex.Proofs.Session.Counters

/-!
# `Proofs.Session.Malformed` — lines that hold no event

A session takes in a stream item by item and counts each item once, as an event of its kind or as malformed.
It looks at an event and never at the number of its line, so two streams that hold the same, one line
further down in the one than in the other, leave the same session behind but for the log. A line that holds
no event therefore changes one count, and a blank one none: this is so whatever is in the line, and whatever
comes before and after it. A stream that holds events and nothing else is the run of these events.

## Contents
- `ingestAll_printed`: a stream of events is a run.
- `stats_ingest`, `counts_ingestAll`: what is counted of an event and of a stream.
- `shifted_of_line`, `shifted_of_inserted`: a line that holds no event.
- `bad_lines_do_not_disturb`.
-/

namespace SymbolIndex

namespace Session

open IngestStats EventReader

variable {σ : Type} [Recorder σ]

/-! ## Streams of events -/

/-- **A stream that holds events, one a line, is a run.** So what holds of every run holds of every session
that reads what was printed. -/
theorem ingestAll_printed (s : Session σ) (events : List Event) (storable : ∀ e ∈ events, e.Storable) :
    s.ingestAll (ofBytes (bytesOf ("\n".intercalate (events.map Event.toText)))).items =
      s.run events := by
  unfold ofBytes
  have numbered : items ⟨bytesOf ("\n".intercalate (events.map Event.toText)), 0, false⟩ =
      ((events.zipIdx 1).map Prod.swap).map fun item => ⟨item.1, .ok item.2⟩ := by
    rw [items_intercalate events storable 0, List.map_map]
    rfl
  have read : (events.zipIdx 1).map (Prod.snd ∘ Prod.swap) = events := List.zipIdx_map_fst 1 events
  rw [numbered, ingestAll_events, List.map_map, read]

/-! ## What is counted of a stream -/

/-- **An event is counted once**, under its kind, and it is not counted as malformed. -/
theorem stats_ingest (s : Session σ) (e : Event) : ∃ (c : Contribution) (duplicates : Nat),
    (s.ingest e).stats = s.stats + c.counts e.kind duplicates := by
  by_cases ofEntity : e.kind.isOfEntity = true
  · obtain ⟨c, contributes⟩ := Contributes.exists s ofEntity
    obtain ⟨duplicates, stats, _⟩ := contributes.takes.stats
    exact ⟨c, duplicates, stats⟩
  · rcases accept_cases s e with ⟨s', ok⟩ | ⟨err, s', bad⟩
    · rw [(ingest_of_accept ok).1]
      cases e with
      | file r =>
        obtain ⟨path, code, store, _, _, _, rfl⟩ := acceptFile_eq_ok.mp ok
        refine ⟨{}, 0, ?_⟩
        have told : (warnOfCode path code (s.counted (.file r))).stats = (s.counted (.file r)).stats := by
          unfold warnOfCode
          split <;> rfl
        exact told
      | «import» r =>
        obtain ⟨path, importer, _, _, _, _, rfl⟩ := acceptImport_eq_ok.mp ok
        let counted := s.counted (.import r)
        obtain ⟨duplicates, stats⟩ := misses_addImports counted importer.id (importEntries r)
        refine ⟨{ missed := missedImports importer.id counted (importEntries r) }, duplicates, ?_⟩
        rw [stats]
        rfl
      | «variable» r => exact absurd rfl ofEntity
      | function r => exact absurd rfl ofEntity
      | classPreprocessed r => exact absurd rfl ofEntity
      | classResolved r => exact absurd rfl ofEntity
    · have refused : s.refuses e = true := by
        unfold refuses
        rw [bad]
      obtain ⟨duplicates, stats, _⟩ := (takes_refused refused).stats
      exact ⟨.refused, duplicates, stats⟩

theorem counts_ingest (s : Session σ) (e : Event) : (s.ingest e).stats.events = s.stats.events + 1 ∧
    (s.ingest e).stats.malformedEvents = s.stats.malformedEvents := by
  obtain ⟨c, duplicates, stats⟩ := stats_ingest s e
  rw [stats]
  refine ⟨?_, ?_⟩
  · cases e.kind <;> simp [add_def, add, events, Contribution.counts, countEvent] <;> omega
  · cases e.kind <;> rfl

/-- Every item of a stream is counted, as an event or as malformed. -/
theorem counts_ingestAll (s : Session σ) (items : List StreamItem) :
    (s.ingestAll items).stats.events = s.stats.events + items.countP (fun i => i.content.isOk) ∧
      (s.ingestAll items).stats.malformedEvents =
        s.stats.malformedEvents + items.countP (fun i => !i.content.isOk) := by
  induction items generalizing s with
  | nil => exact ⟨rfl, rfl⟩
  | cons i items ih =>
    obtain ⟨events, malformed⟩ := ih (s.ingestItem i)
    have first : (s.ingestItem i).stats.events = s.stats.events + (if i.content.isOk then 1 else 0) ∧
        (s.ingestItem i).stats.malformedEvents =
          s.stats.malformedEvents + (if !i.content.isOk then 1 else 0) := by
      unfold ingestItem
      cases i.content with
      | ok e => exact counts_ingest s e
      | error err => exact ⟨rfl, rfl⟩
    rw [List.countP_cons, List.countP_cons]
    refine ⟨events.trans ?_, malformed.trans ?_⟩ <;> omega

/-! ## A line that holds no event -/

/-- A line that holds no event changes what is counted as malformed, and not even that if it is blank. -/
theorem shifted_of_line (s : Session σ) {m : String} (bad : IsBlank m ∨ ∀ e, Event.ofText m ≠ .ok e)
    (number : Nat) : Shifted { malformedEvents := if IsBlank m then 0 else 1 } s
      (s.ingestAll (lineItems number (withoutReturn m))) := by
  by_cases blank : IsBlank m
  · rw [if_pos blank, lineItems_of_blank blank]
    exact .refl s
  · obtain ⟨err, item⟩ := lineItems_of_malformed blank (bad.resolve_left blank) number
    rw [if_neg blank, item]
    exact ⟨_, rfl⟩

/-- A line that holds no event changes no more than that in the middle of a stream, since both sessions
take in the lines before it and, at other numbers, what comes after it. -/
theorem shifted_of_inserted (s : Session σ) {lines : List String} (whole : ∀ line ∈ lines, IsLine line)
    {m : String} (one : IsLine m) (bad : IsBlank m ∨ ∀ e, Event.ofText m ≠ .ok e) (rest : List UInt8) :
    Shifted { malformedEvents := if IsBlank m then 0 else 1 }
      (s.ingestAll (ofBytes (ended lines ++ rest)).items)
      (s.ingestAll (ofBytes (ended lines ++ (bytesOf m ++ newline :: rest))).items) := by
  unfold ofBytes
  -- the lines before, the line itself, and the rest
  rw [items_lines whole, items_lines whole, items_ended one, ingestAll_append, ingestAll_append,
    ingestAll_append]
  exact (shifted_of_line _ bad _).ingestAll (contents_items rest _ _)

/-- **A line that holds no event does not disturb a session**, wherever it stands among the lines of a
stream: apart from the log, the session after the stream is the one after the stream without the line, with
one more malformed event if the line is not blank. And after any stream, every item of it has been counted:
those with an event as events, and those without as malformed. -/
theorem bad_lines_do_not_disturb (s : Session σ) (lines : List String)
    (whole : ∀ line ∈ lines, IsLine line) (m : String) (one : IsLine m)
    (bad : IsBlank m ∨ ∀ e, Event.ofText m ≠ .ok e) (rest bytes : List UInt8) :
    (∃ log, s.ingestAll (ofBytes (ended lines ++ (bytesOf m ++ newline :: rest))).items =
      { s.ingestAll (ofBytes (ended lines ++ rest)).items with
        stats :=
          { (s.ingestAll (ofBytes (ended lines ++ rest)).items).stats with
            malformedEvents :=
              (s.ingestAll (ofBytes (ended lines ++ rest)).items).stats.malformedEvents +
                if IsBlank m then 0 else 1 }
        log }) ∧
      (s.ingestAll (ofBytes bytes).items).stats.events =
        s.stats.events + (ofBytes bytes).items.countP (fun i => i.content.isOk) ∧
      (s.ingestAll (ofBytes bytes).items).stats.malformedEvents =
        s.stats.malformedEvents + (ofBytes bytes).items.countP (fun i => !i.content.isOk) := by
  refine ⟨?_, counts_ingestAll s _⟩
  obtain ⟨log, same⟩ := shifted_of_inserted s whole one bad rest
  exact ⟨log, same⟩

/-- Half an event before a carriage return, among an event and a line that is not UTF-8. -/
theorem half_an_event_does_not_disturb :
    (∀ line ∈ ["[\"file\",\"/a.py\",2]"], IsLine line) ∧ IsLine "[\"file\",\r" ∧
    (∀ e, Event.ofText "[\"file\",\r" ≠ .ok e) ∧
    (∃ log, (begin Store.empty {}).ingestAll (ofBytes (ended ["[\"file\",\"/a.py\",2]"] ++
        (bytesOf "[\"file\",\r" ++ newline :: [0xff]))).items =
      { (begin Store.empty {}).ingestAll (ofBytes (ended ["[\"file\",\"/a.py\",2]"] ++ [0xff])).items with
        stats :=
          { ((begin Store.empty {}).ingestAll
              (ofBytes (ended ["[\"file\",\"/a.py\",2]"] ++ [0xff])).items).stats with
            malformedEvents := ((begin Store.empty {}).ingestAll
              (ofBytes (ended ["[\"file\",\"/a.py\",2]"] ++ [0xff])).items).stats.malformedEvents + 1 }
        log }) := by
  have whole : ∀ line ∈ ["[\"file\",\"/a.py\",2]"], IsLine line := by decide
  have one : IsLine "[\"file\",\r" := by decide
  have bad : ∀ e, Event.ofText "[\"file\",\r" ≠ .ok e := by
    have refused : (Event.ofText "[\"file\",\r").isOk = false := by decide +kernel
    intro e read
    rw [read] at refused
    cases refused
  have full : ¬ IsBlank "[\"file\",\r" := by decide
  have all := (bad_lines_do_not_disturb (begin Store.empty {}) _ whole _ one (Or.inr bad) [0xff] []).1
  rw [if_neg full] at all
  exact ⟨whole, one, bad, all⟩

end Session

end SymbolIndex
