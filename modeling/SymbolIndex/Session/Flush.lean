import SymbolIndex.Session.Basic

/-!
# `SymbolIndex.Session.Flush` — the end of a session

The usages move from the ledger into the graph and everything is written in one batch. If the batch
fails, nothing of the buffers reaches the store; files that were committed stay.
-/

namespace SymbolIndex

/-- What a session has done. -/
structure FlushReport where
  ingest : IngestStats
  /-- What was buffered when the batch began. -/
  pending : GraphCounts
  batch : BatchReport
  deriving DecidableEq, Repr, Inhabited

/-- The end of a session: the store after it, its whole log, and its report or an error. -/
structure Flush (σ : Type) where
  store : σ
  log : List LogLine
  outcome : Except Error FlushReport

namespace Session

variable {σ : Type}

/-- The graph that is written: the buffers with the usages of the ledger. -/
def finalGraph (s : Session σ) : Graph :=
  { s.graph with usages := s.ledger.nodes }

def finalize [Recorder σ] (s : Session σ) : Flush σ :=
  let g := s.finalGraph
  let pending := g.counts
  let s := s.tell .info ("Flushing session: " ++ Nat.repr pending.nodes ++ " AST nodes, " ++
    Nat.repr pending.entities ++ " entities, " ++ Nat.repr pending.relations ++ " relations")
  let outcome := Recorder.persistBatch s.store s.sources.unannounced g
  let s := { s with log := s.log ++ outcome.conflicts.map LogLine.conflict }
  match outcome.result with
  | .ok (store, batch) =>
    let s := s.tell .info ("Session flushed: " ++ Nat.repr batch.written ++ " rows written, " ++
      Nat.repr batch.conflicts ++ " conflicts skipped")
    ⟨store, s.log, .ok ⟨s.stats, pending, batch⟩⟩
  | .error err =>
    let s := s.tell .error ("Session flush failed, nothing was written: " ++ err.message)
    ⟨s.store, s.log, .error err⟩

end Session

end SymbolIndex
