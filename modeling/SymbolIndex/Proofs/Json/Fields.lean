import Mathlib.Data.List.Forall2
import SymbolIndex.Event.Decode

/-!
# `Proofs.Json.Fields` — what a record says about its fields

A record is an object or an array, and for each of its fields it gives a value, leaves it out, or ends before
it. Here that is said by membership (`Entries`), and the reader of fields is shown to find just that
(`bind_entries`). An object is read by its known members alone, in whatever order they stand
(`entries_object_congr`): unknown ones may come anywhere, and any number of times.

What stands for a value of some type is a relation between values and the type, put together from those of
its fields; `IsOptional`, `IsDefaulted` and `IsRequired` are the three kinds of field.

## Contents
- `IsText`, `IsWord32`, `IsSigned64`, `IsList`: values without fields.
- `Gives`, `Entries`; `bind_entries`, `entries_object_congr`.
- `IsOptional`, `IsDefaulted`, `IsRequired`.
-/

namespace SymbolIndex.Json

variable {α β : Type}

/-! ## Values without fields -/

namespace Value

def IsText (v : Value) (s : String) : Prop :=
  v = .string s

def IsWord32 (v : Value) (n : UInt32) : Prop :=
  v = .integer n.toNat

def IsSigned64 (v : Value) (n : Int) : Prop :=
  v = .integer n ∧ -0x8000000000000000 ≤ n ∧ n < 0x8000000000000000

/-- An array whose elements stand for those of a list. -/
def IsList (fits : Value → α → Prop) (v : Value) (as : List α) : Prop :=
  ∃ vs, v = .array vs ∧ List.Forall₂ fits vs as

theorem string?_iff (v : Value) (s : String) : v.string? = some s ↔ v.IsText s := by
  unfold IsText
  cases v <;> simp [string?]

/-- An integer is read if it is in range. -/
theorem integer?_iff {v : Value} {low high n : Int} :
    v.integer? low high = some n ↔ v = .integer n ∧ low ≤ n ∧ n < high := by
  cases v with
  | integer m =>
    simp only [integer?, Option.ite_none_right_eq_some, Option.some.injEq, integer.injEq]
    constructor
    · rintro ⟨range, rfl⟩
      exact ⟨rfl, range⟩
    · rintro ⟨rfl, range⟩
      exact ⟨range, rfl⟩
  | null | bool | real | string | array | object => simp [integer?]

theorem signed64?_iff (v : Value) (n : Int) : v.signed64? = some n ↔ v.IsSigned64 n :=
  integer?_iff

theorem word32?_iff (v : Value) (n : UInt32) : v.word32? = some n ↔ v.IsWord32 n := by
  unfold word32? IsWord32
  rw [Option.map_eq_some_iff]
  constructor
  · rintro ⟨i, read, rfl⟩
    obtain ⟨rfl, low, high⟩ := integer?_iff.mp read
    rw [UInt32.toNat_ofNat_of_lt' (by show i.toNat < 2 ^ 32; omega), Int.toNat_of_nonneg low]
  · rintro rfl
    have range := n.toNat_lt
    exact ⟨n.toNat, integer?_iff.mpr ⟨rfl, by omega, by omega⟩, by simp⟩

variable {read : Value → Option α} {fits : Value → α → Prop}

/-- A list is read if each element is, in order. -/
theorem list?_iff (h : ∀ v a, read v = some a ↔ fits v a) (v : Value) (as : List α) :
    list? read v = some as ↔ v.IsList fits as := by
  have elements : ∀ {vs : List Value} {as : List α}, vs.mapM read = some as ↔ List.Forall₂ fits vs as := by
    intro vs
    induction vs with
    | nil => simp
    | cons v vs ih =>
      intro as
      simp only [List.mapM_cons, Option.bind_eq_bind, Option.bind_eq_some_iff, h, ih,
        List.forall₂_cons_left_iff]
      constructor
      · rintro ⟨a, first, as, others, same⟩
        exact ⟨a, as, first, others, (Option.some.inj same).symm⟩
      · rintro ⟨a, as, first, others, rfl⟩
        exact ⟨a, first, as, others, rfl⟩
  unfold IsList
  cases v with
  | array vs =>
    refine elements.trans ⟨fun all => ⟨vs, rfl, all⟩, ?_⟩
    rintro ⟨vs, same, all⟩
    cases same
    exact all
  | null | bool | integer | real | string | object => simp [list?]

/-! ## The entries of a record -/

/-- What a record whose fields are `names` says about one of them. An object says it by its members, an
array by its elements, which stand in the order of the fields. -/
inductive Gives (names : List String) (name : String) : Value → Entry → Prop
  | member {ms : List (String × Value)} {v : Value} (there : (name, v) ∈ ms) :
    Gives names name (.object ms) (.given v)
  | missing {ms : List (String × Value)} (absent : name ∉ ms.map Prod.fst) :
    Gives names name (.object ms) .absent
  | element {vs : List Value} {v : Value} {i : Nat} (place : names[i]? = some name)
    (there : vs[i]? = some v) : Gives names name (.array vs) (.given v)
  | beyond {vs : List Value} {i : Nat} (place : names[i]? = some name) (short : vs.length ≤ i) :
    Gives names name (.array vs) .cut

/-- A value that can be a record with the fields `names`: an object in which none of them is repeated, or an
array that is not too long. -/
inductive IsRecord (names : List String) : Value → Prop
  | object {ms : List (String × Value)}
    (once : ((ms.map Prod.fst).filter fun k => names.contains k).Nodup) : IsRecord names (.object ms)
  | array {vs : List Value} (short : vs.length ≤ names.length) : IsRecord names (.array vs)

/-- The value is a record with the fields `names`, and `entry` is what it says about them. -/
structure Entries (names : List String) (v : Value) (entry : String → Entry) : Prop where
  record : v.IsRecord names
  gives : ∀ name ∈ names, v.Gives names name (entry name)

variable {names : List String} {name : String} {v : Value} {e : Entry}

/-- A member is not found if no member has its name. -/
theorem member?_eq_none_iff {ms : List (String × Value)} :
    member? name ms = none ↔ name ∉ ms.map Prod.fst := by
  induction ms with
  | nil => simp [member?]
  | cons m ms ih =>
    simp only [member?, List.map_cons, List.mem_cons, not_or]
    by_cases own : m.1 = name
    · simp [own]
    · rw [if_neg own, ih]
      exact ⟨fun later => ⟨Ne.symm own, later⟩, And.right⟩

theorem mem_of_member? {ms : List (String × Value)} (h : member? name ms = some v) : (name, v) ∈ ms := by
  induction ms with
  | nil => cases h
  | cons m ms ih =>
    unfold member? at h
    split at h
    · rename_i own
      cases h
      exact own ▸ List.mem_cons_self
    · exact List.mem_cons_of_mem m (ih h)

/-- A known name has one member at most. -/
theorem member?_eq_some_iff {ms : List (String × Value)}
    (once : ((ms.map Prod.fst).filter fun k => names.contains k).Nodup) (known : name ∈ names) :
    member? name ms = some v ↔ (name, v) ∈ ms := by
  refine ⟨mem_of_member?, fun there => ?_⟩
  induction ms with
  | nil => cases there
  | cons m ms ih =>
    rw [List.map_cons, List.filter_cons] at once
    unfold member?
    by_cases own : m.1 = name
    · rw [if_pos own]
      rw [if_pos (List.contains_iff_mem.mpr (own ▸ known)), List.nodup_cons] at once
      rcases List.mem_cons.mp there with rfl | later
      · rfl
      · have again : m.1 ∈ (ms.map Prod.fst).filter fun k => names.contains k := by
          refine List.mem_filter.mpr ⟨List.mem_map.mpr ⟨_, later, own.symm⟩, ?_⟩
          exact List.contains_iff_mem.mpr (own ▸ known)
        exact absurd again once.1
    · rw [if_neg own]
      refine ih ?_ ((List.mem_cons.mp there).resolve_left fun same => own (by rw [← same]))
      split at once
      · exact (List.nodup_cons.mp once).2
      · exact once

/-- The one entry of a record for a field. -/
def entryOf (names : List String) (v : Value) (name : String) : Entry :=
  match v with
  | object ms => ((member? name ms).map Entry.given).getD .absent
  | array vs => (vs[names.idxOf name]?.map Entry.given).getD .cut
  | _ => .absent

theorem entryOf_object (ms : List (String × Value)) :
    entryOf names (.object ms) name = ((member? name ms).map Entry.given).getD .absent := rfl

theorem entryOf_array (vs : List Value) :
    entryOf names (.array vs) name = (vs[names.idxOf name]?.map Entry.given).getD .cut := rfl

/-- What a record gives under a known name is what the reader finds there. -/
theorem gives_iff (distinct : names.Nodup) (record : v.IsRecord names) (known : name ∈ names) :
    v.Gives names name e ↔ entryOf names v name = e := by
  cases record with
  | @object ms once =>
    constructor
    · intro gives
      cases gives with
      | member there => simp [entryOf_object, (member?_eq_some_iff once known).mpr there]
      | missing absent => simp [entryOf_object, member?_eq_none_iff.mpr absent]
    · rintro rfl
      rw [entryOf_object]
      cases found : member? name ms with
      | none => exact .missing (member?_eq_none_iff.mp found)
      | some w => exact .member (mem_of_member? found)
  | @array vs short =>
    have place : names[names.idxOf name]? = some name := by
      rw [List.getElem?_eq_getElem (List.idxOf_lt_length_iff.mpr known), List.getElem_idxOf]
    have own {i : Nat} (h : names[i]? = some name) : names.idxOf name = i := by
      obtain ⟨inside, rfl⟩ := List.getElem?_eq_some_iff.mp h
      exact distinct.idxOf_getElem i inside
    constructor
    · intro gives
      cases gives with
      | element at' there => simp [entryOf_array, own at', there]
      | beyond at' short => simp [entryOf_array, own at', short]
    · rintro rfl
      rw [entryOf_array]
      cases found : vs[names.idxOf name]? with
      | none => exact .beyond place (List.getElem?_eq_none_iff.mp found)
      | some w => exact .element place found

/-- The entries of an array, field by field. -/
theorem map_entryOf_array (distinct : names.Nodup) {vs : List Value} (short : vs.length ≤ names.length) :
    names.map (entryOf names (.array vs)) =
      vs.map Entry.given ++ List.replicate (names.length - vs.length) .cut := by
  apply List.ext_getElem
  · simp
    omega
  · intro i inside _
    rw [List.length_map] at inside
    rw [List.getElem_map, entryOf_array, distinct.idxOf_getElem i inside]
    by_cases there : i < vs.length
    · simp [List.getElem_append_left, there]
    · rw [List.getElem_append_right (by simpa using there)]
      simp [there]

/-- **The reader finds the entries of a record**, and of nothing else. -/
theorem entries_eq_some_iff (distinct : names.Nodup) {es : List Entry} :
    v.entries names = some es ↔ v.IsRecord names ∧ names.map (entryOf names v) = es := by
  cases v with
  | object ms =>
    unfold entries
    rw [Option.ite_none_right_eq_some, Option.some.injEq]
    refine and_congr_left fun _ => ⟨.object, ?_⟩
    rintro ⟨once⟩
    exact once
  | array vs =>
    unfold entries
    rw [Option.ite_none_right_eq_some, Option.some.injEq]
    constructor
    · rintro ⟨short, same⟩
      exact ⟨.array short, (map_entryOf_array distinct short).trans same⟩
    · rintro ⟨record, same⟩
      cases record with
      | array short => exact ⟨short, (map_entryOf_array distinct short).symm.trans same⟩
  | null | bool | integer | real | string =>
    constructor
    · intro found
      cases found
    · rintro ⟨record, _⟩
      cases record

/-- What is read from the entries of a record is read from what the record gives for its fields. -/
theorem bind_entries (distinct : names.Nodup) {f : List Entry → Option α} {a : α}
    {fits : (String → Entry) → Prop} (h : ∀ entry, f (names.map entry) = some a ↔ fits entry) :
    (v.entries names).bind f = some a ↔ ∃ entry, v.Entries names entry ∧ fits entry := by
  rw [Option.bind_eq_some_iff]
  constructor
  · rintro ⟨es, read, taken⟩
    obtain ⟨record, rfl⟩ := (entries_eq_some_iff distinct).mp read
    refine ⟨_, ⟨record, fun name known => ?_⟩, (h _).mp taken⟩
    exact (gives_iff distinct record known).mpr rfl
  · rintro ⟨entry, ⟨record, gives⟩, fit⟩
    refine ⟨names.map entry, (entries_eq_some_iff distinct).mpr ⟨record, ?_⟩, (h entry).mpr fit⟩
    exact List.map_congr_left fun name known => (gives_iff distinct record known).mp (gives name known)

/-- **Only the known members of an object count**, in whatever order they stand. -/
theorem entries_object_congr {ms ms' : List (String × Value)}
    (h : (ms.filter fun m => names.contains m.1).Perm (ms'.filter fun m => names.contains m.1)) :
    (Value.object ms).entries names = (Value.object ms').entries names := by
  have keys : ((ms.map Prod.fst).filter fun k => names.contains k).Perm
      ((ms'.map Prod.fst).filter fun k => names.contains k) := by
    rw [List.filter_map, List.filter_map]
    exact h.map Prod.fst
  simp only [entries]
  by_cases once : ((ms.map Prod.fst).filter fun k => names.contains k).Nodup
  · have once' := keys.nodup_iff.mp once
    rw [if_pos once, if_pos once']
    refine congrArg some (List.map_congr_left fun name known => ?_)
    have found : member? name ms = member? name ms' := by
      refine Option.ext fun w => ?_
      have member (rows : List (String × Value)) :
          (name, w) ∈ rows ↔ (name, w) ∈ rows.filter fun m => names.contains m.1 :=
        ⟨fun there => List.mem_filter.mpr ⟨there, List.contains_iff_mem.mpr known⟩,
          fun there => (List.mem_filter.mp there).1⟩
      rw [member?_eq_some_iff once known, member?_eq_some_iff once' known, member, member ms', h.mem_iff]
    rw [found]
  · rw [if_neg once, if_neg fun once' => once (keys.nodup_iff.mpr once')]

end Value

/-! ## Kinds of field -/

namespace Entry

variable {read : Value → Option α} {fits : Value → α → Prop}

/-- A field that has to be there. -/
inductive IsRequired (fits : Value → α → Prop) : Entry → α → Prop
  | given {v : Value} {a : α} (there : fits v a) : IsRequired fits (.given v) a

/-- A field that may be null, or absent from an object. -/
inductive IsOptional (fits : Value → α → Prop) : Entry → Option α → Prop
  | absent : IsOptional fits .absent none
  | null : IsOptional fits (.given .null) none
  | given {v : Value} {a : α} (there : fits v a) : IsOptional fits (.given v) (some a)

/-- A field that may be absent, from an object or at the end of an array, and has a default then. -/
inductive IsDefaulted (fits : Value → α → Prop) (default : α) : Entry → α → Prop
  | absent : IsDefaulted fits default .absent default
  | cut : IsDefaulted fits default .cut default
  | given {v : Value} {a : α} (there : fits v a) : IsDefaulted fits default (.given v) a

/-- A field that has to be there is read exactly if its value is. -/
theorem required_iff (h : ∀ v a, read v = some a ↔ fits v a) {e : Entry} {a : α} :
    e.required read = some a ↔ e.IsRequired fits a := by
  constructor
  · intro taken
    cases e with
    | given v => exact .given ((h _ _).mp taken)
    | absent => cases taken
    | cut => cases taken
  · rintro ⟨there⟩
    exact (h _ _).mpr there

/-- A field that may be missing is read exactly if its value is, where null does not stand for a value. -/
theorem optional_iff (h : ∀ v a, read v = some a ↔ fits v a) (value : ∀ a, ¬ fits .null a) {e : Entry}
    {a? : Option α} : e.optional read = some a? ↔ e.IsOptional fits a? := by
  constructor
  · intro taken
    unfold optional at taken
    split at taken
    · exact Option.some.inj taken ▸ .null
    · obtain ⟨a, there, rfl⟩ := Option.map_eq_some_iff.mp taken
      exact .given ((h _ _).mp there)
    · exact Option.some.inj taken ▸ .absent
    · cases taken
  · rintro (_ | _ | there)
    · rfl
    · rfl
    · unfold optional
      split
      · rename_i same
        cases same
        exact absurd there (value _)
      · rename_i same
        cases same
        rw [(h _ _).mpr there]
        rfl
      · rename_i same; cases same
      · rename_i same; cases same

/-- A field with a default is read exactly if its value is, and has the default where it is missing. -/
theorem defaulted_iff (h : ∀ v a, read v = some a ↔ fits v a) {default : α} {e : Entry} {a : α} :
    e.defaulted read default = some a ↔ e.IsDefaulted fits default a := by
  constructor
  · intro taken
    cases e with
    | given v => exact .given ((h _ _).mp taken)
    | absent => exact Option.some.inj taken ▸ .absent
    | cut => exact Option.some.inj taken ▸ .cut
  · rintro (_ | _ | there)
    · rfl
    · rfl
    · exact (h _ _).mpr there

end Entry

end SymbolIndex.Json
