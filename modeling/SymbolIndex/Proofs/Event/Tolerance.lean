import SymbolIndex.Proofs.Event.RoundTrip
import SymbolIndex.Proofs.Json.Range

/-!
# `Proofs.Event.Tolerance` — an event is its fields

A text is an event of a kind if it spells an object with exactly one tag, which names the kind, and with
members that stand for the fields; whatever else it holds is passed over. What may be missing or null is
read as missing, and what has a default as its default. So neither the way in which the text is written nor
the order of the members makes a difference, not even to whether there is an event at all.

The text has to be within the limits of the reader: its depth, and numbers that do not overflow when they
are taken as doubles. The second limit is not the range of a double, but lies a little below it.

## Contents
- `Event.GivenBy`; `ofMembers?_iff`, `ofMembers?_perm`.
- `decoding_is_tolerant`.
-/

namespace SymbolIndex.Event

open Json

/-- The members of an object give an event: exactly one of them is the tag and names the kind, and they
stand for the fields. -/
structure GivenBy (e : Event) (ms : List (String × Value)) : Prop where
  tag : tags ms = [("event", .string (Vocabulary.word e.kind))]
  fields : e.Fits (.object ms)

/-- What the reader makes of an object is the event that its members give, if they give one. -/
theorem ofMembers?_iff {ms : List (String × Value)} {e : Event} :
    ofMembers? ms = some e ↔ e.GivenBy ms := by
  rw [ofMembers?_eq_some_iff, ofContent?_iff]
  exact ⟨fun ⟨tag, _, fields⟩ => ⟨tag, fields⟩, fun ⟨tag, fields⟩ => ⟨tag, rfl, fields⟩⟩

/-- The order of the members makes no difference. -/
theorem ofMembers?_perm {ms ms' : List (String × Value)} (h : ms'.Perm ms) :
    ofMembers? ms' = ofMembers? ms := by
  have content (kind : EventKind) : ofContent? (.object ms') kind = ofContent? (.object ms) kind :=
    ofContent?_congr (fun names _ => Value.entries_object_congr (h.filter _)) kind
  have alone (m : String × Value) : tags ms' = [m] ↔ tags ms = [m] := by
    have order : (tags ms').Perm (tags ms) := h.filter _
    rw [← List.perm_singleton, ← List.perm_singleton]
    exact ⟨order.symm.trans, order.trans⟩
  refine Option.ext fun e => ?_
  rw [ofMembers?_eq_some_iff, ofMembers?_eq_some_iff, content, alone]

/-- **Decoding tolerates anything but wrong shapes.** A text that spells an object, with the members `ms` in
whatever order and with whatever white space and escapes, decodes to the events that `ms` gives and to no
other: each field has the value that is given for it, or is missing if it is null or absent, and members that
are neither a field nor the tag are passed over, at any depth, repeated ones too. Any text for the same
members in another order decodes to the same, if it decodes. Numbers may be any that do not overflow. -/
theorem decoding_is_tolerant {ms : List (String × Value)} {text : String}
    (spelled : Spells (fun n => n.overflows = false) maxDepth (.object ms) text.toList) :
    (∀ e, ofText text = .ok e ↔ e.GivenBy ms) ∧
      ∀ (ms' : List (String × Value)) (text' : String), ms'.Perm ms →
        Spells (fun n => n.overflows = false) maxDepth (.object ms') text'.toList →
        ∀ e, ofText text' = .ok e ↔ ofText text = .ok e := by
  have finite : ∀ n : Numeral, n.overflows = false → n.overflows = false := fun _ h => h
  refine ⟨fun e => (ofText_iff finite spelled).trans ofMembers?_iff, ?_⟩
  intro ms' text' order spelled' e
  rw [ofText_iff finite spelled', ofText_iff finite spelled, ofMembers?_perm order]

/-! ### A file among unknown members -/

/-- Members with an escape, with white space and with a number that is no integer. Two of them are unknown
and have the same name. -/
def scattered : List MemberSpelling :=
  [⟨"x", .array [.null], [], quote "x", [], "[null]".toList⟩,
    ⟨"path", .string "a", [], quote "path", [' '], "\"\\u0061\"".toList⟩,
    ⟨"event", .string "file", ['\n'], quote "event", [], quote "file"⟩,
    ⟨"x", .real "1.5", [], quote "x", [], "1.5".toList⟩]

theorem scattered_named : ∀ m ∈ scattered, m.Named := by
  have bare : Spaces [] := List.forall_mem_nil _
  have space : Spaces [' '] := by simp [Spaces, isSpace]
  have newline : Spaces ['\n'] := by simp [Spaces, isSpace]
  simp only [scattered, List.mem_cons, List.not_mem_nil, or_false, forall_eq_or_imp, forall_eq]
  exact ⟨⟨bare, spellsString_quote _, bare⟩, ⟨bare, spellsString_quote _, space⟩,
    ⟨newline, spellsString_quote _, bare⟩, ⟨bare, spellsString_quote _, bare⟩⟩

theorem scattered_spelled : ∀ m ∈ scattered,
    Spells (fun n => n.overflows = false) (maxDepth - 1) m.value m.text := by
  have digit (c : Char) (h : Text.Decimal.isDigit c = true) : Digits [c] := by simpa [Digits] using h
  have number : SpellsNumeral ⟨false, ['1'], ['5'], none⟩ ['1', '.', '5'] :=
    .mk (digit '1' rfl) (by decide) (.point (digit '5' rfl)) .none
  have letter : SpellsChar 'a' ['\\', 'u', '0', '0', '6', '1'] := .unit (n := 0x61) ⟨rfl, rfl⟩ rfl rfl
  have path : SpellsString "a" "\"\\u0061\"".toList := .mk (.cons letter .nil)
  have nulls : ∀ p ∈ [(Value.null, "null".toList)],
      Spells (fun n => n.overflows = false) 125 p.1 p.2 := by
    simp only [List.mem_singleton, forall_eq]
    exact .null
  simp only [scattered, List.mem_cons, List.not_mem_nil, or_false, forall_eq_or_imp, forall_eq]
  exact ⟨.array nulls, .string path, .string (spellsString_quote _), .real number rfl rfl⟩

/-- The members spell an object, in whatever order they are written. -/
theorem scattered_object {parts : List MemberSpelling} (some : ∀ m ∈ parts, m ∈ scattered)
    {text : List Char}
    (h : text = '\x7b' :: (Value.separated (parts.map MemberSpelling.toText) ++ ['\x7d'])) :
    Spells (fun n => n.overflows = false) maxDepth (.object (parts.map MemberSpelling.toMember)) text := by
  subst h
  exact .object (fun m hm => scattered_named m (some m hm)) fun m hm => scattered_spelled m (some m hm)

theorem scattered_gives : (file ⟨some "a", none⟩).GivenBy (scattered.map MemberSpelling.toMember) := by
  refine ⟨rfl, fun name => if name = "path" then .given (.string "a") else .absent, ⟨.object ?_, ?_⟩, ?_, ?_⟩
  · decide
  · simp only [List.mem_cons, List.not_mem_nil, or_false, forall_eq_or_imp, forall_eq]
    refine ⟨.member ?_, .missing (by decide)⟩
    exact List.mem_cons_of_mem _ List.mem_cons_self
  · exact .given rfl
  · exact .absent

/-- The members give the file as they stand, and so they do the other way round. -/
theorem scattered_members_decode :
    ofText "\x7b\"x\":[null],\"path\" :\"\\u0061\",\n\"event\":\"file\",\"x\":1.5\x7d" =
        .ok (file ⟨some "a", none⟩) ∧
      ofText "\x7b\"x\":1.5,\n\"event\":\"file\",\"path\" :\"\\u0061\",\"x\":[null]\x7d" =
        .ok (file ⟨some "a", none⟩) := by
  have spelled := scattered_object (fun _ h => h) (by decide +kernel :
    "\x7b\"x\":[null],\"path\" :\"\\u0061\",\n\"event\":\"file\",\"x\":1.5\x7d".toList = _)
  have turned := scattered_object (fun _ h => List.mem_reverse.mp h) (by decide +kernel :
    "\x7b\"x\":1.5,\n\"event\":\"file\",\"path\" :\"\\u0061\",\"x\":[null]\x7d".toList = _)
  obtain ⟨decodes, order⟩ := decoding_is_tolerant spelled
  have event := (decodes _).mpr scattered_gives
  exact ⟨event, (order _ _ ((List.reverse_perm scattered).map _) turned _).mpr event⟩

/-! ### What is refused -/

/-- An unknown member whose number is below the largest double. -/
def large : List MemberSpelling :=
  [⟨"event", .string "file", [], quote "event", [], quote "file"⟩,
    ⟨"x", .real "1.797693134862315708e308", [], quote "x", [], "1.797693134862315708e308".toList⟩]

/-- A text that spells an object with a number just below the largest double is refused, though the members
give an event. So is one with a lone surrogate, which spells no character. -/
theorem numbers_below_the_largest_double_are_refused :
    Spells (fun n => n.AtMost Double.largest) maxDepth (.object (large.map MemberSpelling.toMember))
        "\x7b\"event\":\"file\",\"x\":1.797693134862315708e308\x7d".toList ∧
      (file ⟨none, none⟩).GivenBy (large.map MemberSpelling.toMember) ∧
      ofText "\x7b\"event\":\"file\",\"x\":1.797693134862315708e308\x7d" = .error .malformed ∧
      ofText "\x7b\"event\":\"file\",\"x\":\"\\ud800\"\x7d" = .error .malformed := by
  have digits (cs : List Char) (some : cs ≠ []) (h : cs.all Text.Decimal.isDigit = true) : Digits cs :=
    ⟨some, List.all_eq_true.mp h⟩
  have number : SpellsNumeral ⟨false, ['1'], "797693134862315708".toList, some ⟨false, "308".toList⟩⟩
      "1.797693134862315708e308".toList :=
    .mk (digits ['1'] (by decide) (by decide)) (by decide) (.point (digits _ (by decide) (by decide)))
      (.some (Or.inl rfl) .none (digits _ (by decide) (by decide)))
  refine ⟨?_, ⟨rfl, fun _ => .absent, ⟨.object (by decide), ?_⟩, .absent, .absent⟩, ?_, ?_⟩
  · have bare : Spaces [] := List.forall_mem_nil _
    have named : ∀ m ∈ large, m.Named := by
      simp only [large, List.mem_cons, List.not_mem_nil, or_false, forall_eq_or_imp, forall_eq]
      exact ⟨⟨bare, spellsString_quote _, bare⟩, ⟨bare, spellsString_quote _, bare⟩⟩
    have members : ∀ m ∈ large, Spells (fun n => n.AtMost Double.largest) (maxDepth - 1) m.value m.text := by
      simp only [large, List.mem_cons, List.not_mem_nil, or_false, forall_eq_or_imp, forall_eq]
      exact ⟨.string (spellsString_quote _), .real number rfl (by decide +kernel)⟩
    exact .object named members
  · simp only [List.mem_cons, List.not_mem_nil, or_false, forall_eq_or_imp, forall_eq]
    exact ⟨.missing (by decide), .missing (by decide)⟩
  · decide +kernel
  · decide +kernel

end SymbolIndex.Event
