import SymbolIndex.Store.Write

/-!
# `SymbolIndex.Store.Recorder` — what a session needs of a store

A recorder commits single files and whole batches. The store is one; `Restricted` is another, which
refuses one kind of write or both and otherwise passes everything on.
-/

namespace SymbolIndex

open Store

/-- A place to keep records. A refused write changes nothing. -/
class Recorder (σ : Type) where
  persistFile : σ → File → BuildAction → Except Error σ
  persistBatch : σ → List File → Graph → BatchOutcome σ

instance : Recorder Store where
  persistFile := Store.persistFile
  persistBatch := Store.persistBatch

/-- A store that may be unavailable for files, for batches, or for both. -/
structure Restricted where
  store : Store
  refusesFiles : Bool := false
  refusesBatches : Bool := false

namespace Restricted

def persistFile (r : Restricted) (f : File) (action : BuildAction) : Except Error Restricted :=
  if r.refusesFiles then .error (.fatal .storeUnavailable)
  else (r.store.persistFile f action).map fun store => { r with store }

def persistBatch (r : Restricted) (files : List File) (g : Graph) : BatchOutcome Restricted :=
  if r.refusesBatches then ⟨[], .error (.fatal .storeUnavailable)⟩
  else
    let outcome := r.store.persistBatch files g
    ⟨outcome.conflicts, outcome.result.map fun (store, report) => ({ r with store }, report)⟩

end Restricted

instance : Recorder Restricted where
  persistFile := Restricted.persistFile
  persistBatch := Restricted.persistBatch

end SymbolIndex
