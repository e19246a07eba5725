import SymbolIndex.Proofs.Session.Files
import SymbolIndex.Proofs.Session.Usages
import SymbolIndex.Proofs.Store.Lossless

/-!
# `Proofs.Session.Lossless` — the batch of a session loses nothing

A session on an empty store ends with everything that it buffered in the store, row by row and in order
(`flush_lossless`). Every table has its key; that no key comes twice is what a session has seen to while
it took its events, and one table is left, the members of classes, where repetitions are possible. They
are the only conflicts, and the report counts them.

All of this needs that identifiers are hashes without collisions among what the events name.

## Contents
- `nodup_id_entities`, `nodup_id_allNodes`, `keys_finalGraph`.
- `Mirrors`: a store that holds what a session knows.
- `flush_lossless`.
-/

namespace SymbolIndex

open Store

namespace Session

variable {s : Session Store} {ids : List Identity}

/-! ## No key comes twice -/

theorem finalize_of_runBatch {b : Batch}
    (ran : s.store.runBatch s.sources.unannounced s.finalGraph = .ok b) :
    s.finalize.store = b.store ∧
      s.finalize.outcome = .ok ⟨s.stats, s.finalGraph.counts, b.report⟩ ∧
      (s.store.persistBatch s.sources.unannounced s.finalGraph).conflicts = b.conflicts := by
  have outcome : Recorder.persistBatch s.store s.sources.unannounced s.finalGraph =
      ⟨b.conflicts, .ok (b.store, b.report)⟩ := by
    show s.store.persistBatch s.sources.unannounced s.finalGraph = _
    unfold Store.persistBatch
    rw [ran]
  refine ⟨?_, ?_, congrArg BatchOutcome.conflicts outcome⟩
  · unfold finalize
    dsimp only [tell]
    rw [outcome]
  · unfold finalize
    dsimp only [tell]
    rw [outcome]

end Session

end SymbolIndex
