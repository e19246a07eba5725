import SymbolIndex.Proofs.Event.Shapes
import SymbolIndex.Proofs.Json.Reads

/-!
# `Proofs.Event.Objects` — events from objects, however they are written

What the reader of events makes of a text that spells an object. It goes through the members in the order in
which they stand and keeps the tag apart from the rest (`collect`); in the end only the tags and the other
members count, each in their order (`collect_eq_some_iff`). So a text is an event if one member is the tag,
names a kind, and the members stand for an event of that kind (`ofText_iff`).

## Contents
- `kindOf?`, `readKind_reads`.
- `collect`, `readMember_reads`; `collect_eq_some_iff`.
- `read_reads`, `ofText_iff`.
-/

namespace SymbolIndex.Event

open Json

variable {range : Numeral → Prop} {depth : Nat} {v : Value} {text : List Char}

/-! ## The tag -/

/-- The kind that a value names. -/
def kindOf? : Value → Option EventKind
  | .string w => Vocabulary.ofWord? w
  | _ => none

/-- A kind is one of the words of the tag, and nothing else. -/
theorem kindOf?_eq_some_iff {kind : EventKind} :
    kindOf? v = some kind ↔ v = .string (Vocabulary.word kind) := by
  cases v with
  | string w => simp [kindOf?, Vocabulary.ofWord?_eq_some_iff]
  | null | bool | integer | real | array | object => simp [kindOf?]

theorem readKind_skipSpace (t : List Char) : readKind (skipSpace t) = readKind t := by
  unfold readKind Form.guarded
  rw [skipSpace_idem]

/-- A value that starts with no quote names no kind. -/
theorem readKind_refuses {t rest : List Char} {c : Char} (start : skipSpace t = c :: rest) (other : c ≠ '"') :
    (readKind t).toOption = none := by
  unfold readKind Form.guarded
  rw [start]
  simp only [other, decide_false, Bool.false_eq_true, if_false]
  cases refused : (Form.otherType (c :: rest) : Except Fault (EventKind × List Char)) with
  | error fault => rfl
  | ok read => exact absurd refused (Form.otherType_ne_ok _ _)

/-- A number is no tag, also one that is out of range. -/
theorem readKind_refuses_number {t : List Char} (h : ∃ c cs, text = c :: cs ∧
    (c = '-' ∨ Text.Decimal.isDigit c = true)) : (readKind (text ++ t)).toOption = none := by
  obtain ⟨c, cs, rfl, start⟩ := h
  obtain ⟨space, _, _, _, _, quote⟩ := numeral_start start
  exact readKind_refuses (skipSpace_cons space _) quote

/-- **The tag is read off its text** as it is off its value. -/
theorem readKind_reads (h : Spells range depth v text) : Reads readKind text (kindOf? v) := by
  induction h with
  | @string depth s text quoted =>
    obtain ⟨body, rfl, read⟩ := string_spelled quoted
    intro rest _
    refine ⟨[], nofun, ?_⟩
    unfold readKind Form.guarded
    rw [List.cons_append, skipSpace_cons (by decide)]
    simp only [decide_true, if_true, List.drop_succ_cons, List.drop_zero, read, bind, Except.bind, kindOf?]
    cases (Vocabulary.ofWord? s : Option EventKind) <;> rfl
  | spaced spaces spelled more ih => exact ih.spaced readKind_skipSpace spaces more
  | integer numeral whole => exact .refused fun rest => readKind_refuses_number numeral.start
  | real numeral broken within => exact .refused fun rest => readKind_refuses_number numeral.start
  | null | yes | no | emptyArray | array | emptyObject | object =>
    exact .refused fun rest => readKind_refuses (skipSpace_cons (by decide) _) (by decide)

/-! ## The members -/

/-- What has been collected of an object after one more member: its tag, if there has been one, and the
members that are no tag. -/
def collect (seen : Option EventKind × List (String × Value)) (m : String × Value) :
    Option (Option EventKind × List (String × Value)) :=
  if m.1 = "event" then
    if seen.1 = none then (kindOf? m.2).map fun kind => (some kind, seen.2) else none
  else some (seen.1, seen.2 ++ [m])

/-- A member is read as it is collected: as a tag, whose value has to be a kind, or as a field. -/
theorem readMember_reads (finite : ∀ n, range n → n.overflows = false) {m : MemberSpelling}
    (blank : Spaces m.between) (h : Spells range (maxDepth - 1) m.value m.text)
    (seen : Option EventKind × List (String × Value)) :
    Reads (readMember seen m.key) (m.between ++ ':' :: m.text) (collect seen m.toMember) := by
  unfold readMember collect MemberSpelling.toMember
  by_cases tag : m.key = "event"
  · simp only [if_pos tag]
    cases seen.1 with
    | some kind => exact .refused fun rest => rfl
    | none =>
      rw [if_pos rfl, Option.map_eq_bind]
      refine Reads.colon ?_ blank
      exact (readKind_reads h).bind fun _ _ => rfl
  · simp only [if_neg tag]
    refine Reads.colon ?_ blank
    exact (value_reads finite h).bind (f := fun v => some (seen.1, seen.2 ++ [(m.key, v)])) fun _ _ => rfl

/-- The members that are the tag. -/
def tags (ms : List (String × Value)) : List (String × Value) :=
  ms.filter fun m => m.1 = "event"

/-- The members that are not. -/
def fields (ms : List (String × Value)) : List (String × Value) :=
  ms.filter fun m => m.1 ≠ "event"

theorem tags_cons_tag {m : String × Value} (tag : m.1 = "event") (ms : List (String × Value)) :
    tags (m :: ms) = m :: tags ms ∧ fields (m :: ms) = fields ms :=
  ⟨List.filter_cons_of_pos (decide_eq_true tag), List.filter_cons_of_neg (by simpa using tag)⟩

theorem tags_cons_field {m : String × Value} (field : m.1 ≠ "event") (ms : List (String × Value)) :
    tags (m :: ms) = tags ms ∧ fields (m :: ms) = m :: fields ms :=
  ⟨List.filter_cons_of_neg (by simpa using field), List.filter_cons_of_pos (decide_eq_true field)⟩

/-- After the tag there may be no other. -/
theorem collect_tagged (ms done : List (String × Value)) (kind : EventKind) :
    ms.foldlM collect (some kind, done) =
      if tags ms = [] then some (some kind, done ++ fields ms) else none := by
  induction ms generalizing done with
  | nil => simp [tags, fields]
  | cons m ms ih =>
    rw [List.foldlM_cons]
    by_cases tag : m.1 = "event"
    · simp [collect, tag, tags_cons_tag tag]
    · simp [collect, tag, tags_cons_field tag, ih]

/-- **Of the members of an object the tag is told apart wherever it stands.** -/
theorem collect_eq_some_iff (ms done found : List (String × Value)) (kind : EventKind) :
    ms.foldlM collect (none, done) = some (some kind, found) ↔
      tags ms = [("event", .string (Vocabulary.word kind))] ∧ done ++ fields ms = found := by
  induction ms generalizing done with
  | nil => simp [tags]
  | cons m ms ih =>
    rw [List.foldlM_cons]
    by_cases tag : m.1 = "event"
    · obtain ⟨name, v⟩ := m
      obtain ⟨tagged, others⟩ := tags_cons_tag tag ms
      subst tag
      rw [tagged, others]
      simp only [collect, if_true, Option.bind_eq_bind, Option.bind_map, Function.comp_def, collect_tagged,
        Option.bind_eq_some_iff, kindOf?_eq_some_iff, Option.ite_none_right_eq_some, Option.some.injEq,
        Prod.mk.injEq, List.cons.injEq, true_and]
      constructor
      · rintro ⟨kind', rfl, alone, rfl, rfl⟩
        exact ⟨⟨rfl, alone⟩, rfl⟩
      · rintro ⟨⟨rfl, alone⟩, rfl⟩
        exact ⟨kind, rfl, alone, rfl, rfl⟩
    · simp [collect, tag, tags_cons_field tag, ih]

/-! ## Events -/

/-- What an object is as an event, if it is one. -/
def ofMembers? (ms : List (String × Value)) : Option Event :=
  (ms.foldlM collect (none, [])).bind fun seen => seen.1.bind (ofContent? (.object seen.2))

theorem read_skipSpace (t : List Char) : read (skipSpace t) = read t := by
  unfold read
  rw [skipSpace_idem]

/-- An event is made of its tag and its content, if there is a tag. -/
theorem ofTagged_toOption (tag : Option EventKind) (content : Value) :
    (ofTagged tag content).toOption = tag.bind (ofContent? content) := by
  unfold ofTagged
  cases tag.bind (ofContent? content) <;> rfl

/-- An object is read member by member, and then as what its tag says. -/
theorem read_object {seen : Option (Option EventKind × List (String × Value))} {body : List Char}
    (loop : ∀ rest, (Json.members strict readMember (none, []) (body ++ '\x7d' :: rest)).toOption =
      seen.map fun seen => (seen, rest)) :
    Reads read ('\x7b' :: (body ++ ['\x7d']))
      (seen.bind fun seen => seen.1.bind (ofContent? (.object seen.2))) := by
  intro rest _
  refine ⟨[], nofun, ?_⟩
  rw [List.cons_append, List.append_assoc, List.singleton_append]
  unfold read
  rw [skipSpace_cons (by decide)]
  simp only [if_true]
  rw [toOption_bind, loop rest]
  cases seen with
  | none => rfl
  | some seen =>
    simp only [Option.map_some, Option.bind_some, toOption_bind, ofTagged_toOption]
    cases seen.1.bind (ofContent? (.object seen.2)) <;> rfl

/-- **An object is read as an event however it is written.** -/
theorem read_reads (finite : ∀ n, range n → n.overflows = false) {ms : List (String × Value)}
    (h : Spells range maxDepth (.object ms) text) : Reads read text (ofMembers? ms) := by
  generalize whole : maxDepth = depth at h
  generalize same : Value.object ms = v at h
  induction h with
  | emptyObject spaces =>
    cases same
    exact read_object fun rest => members_blank spaces (none, []) rest
  | @object depth parts named members ih =>
    cases same
    have deeper : depth = maxDepth - 1 := by omega
    subst deeper
    unfold ofMembers?
    rw [List.foldlM_map]
    exact read_object fun rest => members_reads (none, []) named
      (fun m hm seen => readMember_reads finite (named m hm).between (members m hm) seen) rest
  | spaced spaces spelled more ih => exact (ih whole same).spaced read_skipSpace spaces more
  | null | yes | no | integer | real | string | emptyArray | array => cases same

/-- Two contents that agree on all names but that of the tag. -/
theorem ofContent?_fields (ms : List (String × Value)) (kind : EventKind) :
    ofContent? (.object (fields ms)) kind = ofContent? (.object ms) kind := by
  refine ofContent?_congr (fun names other => Value.entries_object_congr ?_) kind
  unfold fields
  rw [List.filter_filter]
  refine .of_eq (List.filter_congr fun m _ => ?_)
  have apart : m.1 ∈ names → m.1 ≠ "event" := fun known same => other (same ▸ known)
  simpa using apart

/-- **Members stand for an event** if one of them is the tag, once, and the others stand for its fields. -/
theorem ofMembers?_eq_some_iff {ms : List (String × Value)} {e : Event} :
    ofMembers? ms = some e ↔ tags ms = [("event", .string (Vocabulary.word e.kind))] ∧
      ofContent? (.object ms) e.kind = some e := by
  unfold ofMembers?
  constructor
  · intro h
    obtain ⟨⟨tag, found⟩, collected, h⟩ := Option.bind_eq_some_iff.mp h
    obtain ⟨kind, rfl, content⟩ := Option.bind_eq_some_iff.mp h
    obtain ⟨tagged, rfl⟩ := (collect_eq_some_iff ms [] found kind).mp collected
    rw [List.nil_append, ofContent?_fields] at content
    obtain ⟨rfl, _⟩ := ofContent?_iff.mp content
    exact ⟨tagged, content⟩
  · rintro ⟨tagged, content⟩
    rw [(collect_eq_some_iff ms [] (fields ms) e.kind).mpr ⟨tagged, List.nil_append _⟩]
    show ofContent? (.object (fields ms)) e.kind = some e
    rw [ofContent?_fields, content]

/-- **A text that spells an object is an event if the object is one.** -/
theorem ofText_iff (finite : ∀ n, range n → n.overflows = false) {ms : List (String × Value)}
    {text : String} (h : Spells range maxDepth (.object ms) text.toList) {e : Event} :
    ofText text = .ok e ↔ ofMembers? ms = some e := by
  have read : (ofText text).toOption = ofMembers? ms := whole_reads (read_reads finite h)
  rw [← read]
  exact ⟨fun ok => by rw [ok]; rfl, eq_ok_of_toOption⟩

end SymbolIndex.Event
