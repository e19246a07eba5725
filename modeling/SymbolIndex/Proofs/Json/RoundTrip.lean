import SymbolIndex.Proofs.Json.Reads

/-!
# `Proofs.Json.RoundTrip` — what is written follows the grammar

The compact text of a value spells the value, so that it is read back. A value has to be nested no deeper
than the reader goes and its integers have to be of 64 bits (`Writable`); numbers of which only the spelling
is kept are left out, since nothing keeps a spelling from being no number.

## Contents
- `spellsString_quote`, `spellsNumeral_ofInt`: scalars as they are written.
- `Writable`; `Writable.spells`.
- `visible_render`: the text is one line.
-/

namespace SymbolIndex

/-! ## Scalars -/

theorem Text.Hex.number?_digits (width n : Nat) : number? (digits width n) = some (n % Nat.pow 16 width) := by
  induction width generalizing n with
  | zero => exact congrArg some (Nat.mod_one n).symm
  | succ width ih =>
    have front := ih (n / 16)
    unfold number? at front ⊢
    rw [digits, List.foldlM_append, front]
    have last := value?_digit (n % 16) (Nat.mod_lt n (by decide))
    simp only [List.foldlM_cons, List.foldlM_nil, last, Option.bind_eq_bind, Option.bind_some,
      Option.map_some]
    have split : Nat.pow 16 (width + 1) = 16 * Nat.pow 16 width := Nat.pow_succ'
    rw [split, Nat.mod_mul, Nat.add_comm]
    rfl

namespace Json

open Value (separated render renderAll renderMembers)

/-- **However a character is written, it is spelled.** -/
theorem spellsChar_escape (c : Char) : SpellsChar c (escape c) := by
  unfold escape
  by_cases quote : c = '"'
  · subst quote; exact .short rfl
  by_cases backslash : c = '\\'
  · subst backslash; exact .short rfl
  by_cases backspace : c = '\x08'
  · subst backspace; exact .short rfl
  by_cases tab : c = '\t'
  · subst tab; exact .short rfl
  by_cases line : c = '\n'
  · subst line; exact .short rfl
  by_cases feed : c = '\x0c'
  · subst feed; exact .short rfl
  by_cases carriage : c = '\r'
  · subst carriage; exact .short rfl
  simp only [quote, backslash, backspace, tab, line, feed, carriage, if_false]
  by_cases control : c.toNat < 0x20
  · have small : c.toNat % Nat.pow 16 4 = c.toNat := Nat.mod_eq_of_lt (by show _ < 0x10000; omega)
    have digits : SpellsUnit c.toNat (Text.Hex.digits 4 c.toNat) :=
      ⟨Text.Hex.length_digits 4 _, (Text.Hex.number?_digits 4 _).trans (congrArg some small)⟩
    have unit := SpellsChar.unit digits (decide_eq_false (by omega)) (decide_eq_false (by omega))
    rw [Char.ofNat_toNat] at unit
    rw [if_pos control]
    exact unit
  · rw [if_neg control]
    exact .plain quote backslash control

theorem spellsString_quote (s : String) : SpellsString s (quote s) := by
  have chars (cs : List Char) : SpellsChars cs (cs.flatMap escape) := by
    induction cs with
    | nil => exact .nil
    | cons c cs ih => exact .cons (spellsChar_escape c) ih
  have quoted := SpellsString.mk (chars s.toList)
  rwa [String.ofList_toList] at quoted

/-- Only zero is written with a leading zero. -/
theorem head?_digits {n : Nat} (h : (Text.Decimal.digits n).head? = some '0') : n = 0 := by
  induction n using Text.Decimal.digits.induct with
  | case1 n small =>
    rw [Text.Decimal.digits, if_pos small, List.head?_cons] at h
    have digit := Text.Decimal.digitValue_digit n small
    rw [Option.some.inj h] at digit
    exact digit.symm
  | case2 n large ih =>
    rw [Text.Decimal.digits, if_neg large, List.head?_append] at h
    cases front : (Text.Decimal.digits (n / 10)).head? with
    | none =>
      have value := Text.Decimal.value_digits (n / 10)
      rw [List.head?_eq_none_iff.mp front] at value
      have zero : n / 10 = 0 := value.symm
      omega
    | some c =>
      rw [front] at h
      have zero := ih (front.trans h)
      omega

theorem digits_ne_nil (n : Nat) : Text.Decimal.digits n ≠ [] := by
  rw [Text.Decimal.digits]
  split
  · exact List.cons_ne_nil _ _
  · exact List.append_ne_nil_of_right_ne_nil _ (List.cons_ne_nil _ _)

/-- **An integer is spelled as the numeral of its sign and its digits.** -/
theorem spellsNumeral_ofInt (n : Int) :
    SpellsNumeral ⟨decide (n < 0), Text.Decimal.digits n.natAbs, [], none⟩ (Text.Decimal.ofInt n) := by
  have digits : Digits (Text.Decimal.digits n.natAbs) :=
    ⟨digits_ne_nil _, Text.Decimal.isDigit_of_mem_digits _⟩
  have alone : (Text.Decimal.digits n.natAbs).head? = some '0' → Text.Decimal.digits n.natAbs = ['0'] := by
    intro zero
    rw [head?_digits zero, Text.Decimal.digits]
    rfl
  have spelled : SpellsNumeral ⟨decide (n < 0), Text.Decimal.digits n.natAbs, [], none⟩ _ :=
    .mk digits alone .none .none
  unfold Text.Decimal.ofInt
  rw [List.append_nil, List.append_nil] at spelled
  by_cases negative : n < 0
  · rw [if_pos negative]
    simpa [minusSign, negative] using spelled
  · rw [if_neg negative]
    simpa [minusSign, negative] using spelled

/-- Integers of 64 bits, signed or not. -/
def IsWord (n : Int) : Prop :=
  -0x8000000000000000 ≤ n ∧ n < 0x10000000000000000

theorem integer?_ofInt {n : Int} (range : IsWord n) :
    (Numeral.mk (decide (n < 0)) (Text.Decimal.digits n.natAbs) [] none).integer? = some n := by
  obtain ⟨low, high⟩ := range
  unfold Numeral.integer?
  simp only [Text.Decimal.value_digits, and_self, if_true, decide_eq_true_eq]
  by_cases negative : n < 0
  · rw [if_pos negative, if_pos (by omega)]
    exact congrArg some (by omega)
  · rw [if_neg negative, if_pos (by omega)]
    exact congrArg some (by omega)

/-! ## Values -/

/-- A value that is nested no deeper than `depth`, with integers of 64 bits and without numbers of which
only the spelling is kept. -/
inductive Writable : (depth : Nat) → Value → Prop
  | null {depth : Nat} : Writable depth .null
  | bool {depth : Nat} (b : Bool) : Writable depth (.bool b)
  | integer {depth : Nat} {n : Int} (range : IsWord n) : Writable depth (.integer n)
  | string {depth : Nat} (s : String) : Writable depth (.string s)
  | array {depth : Nat} {vs : List Value} (elements : ∀ v ∈ vs, Writable depth v) :
    Writable (depth + 1) (.array vs)
  | object {depth : Nat} {ms : List (String × Value)} (members : ∀ m ∈ ms, Writable depth m.2) :
    Writable (depth + 1) (.object ms)

theorem renderAll_eq_map (vs : List Value) : renderAll vs = vs.map render := by
  induction vs with
  | nil => rfl
  | cons v vs ih => rw [renderAll, ih, List.map_cons]

/-- A member as it is written, without white space. -/
def compact (m : String × Value) : MemberSpelling :=
  ⟨m.1, m.2, [], quote m.1, [], m.2.render⟩

theorem renderMembers_eq_map (ms : List (String × Value)) :
    renderMembers ms = ms.map fun m => (compact m).toText := by
  induction ms with
  | nil => rfl
  | cons m ms ih =>
    rw [renderMembers, ih, List.map_cons]
    rfl

/-- **The compact text of a value spells it.** -/
theorem Writable.spells {range : Numeral → Prop} {depth : Nat} {v : Value} (h : Writable depth v) :
    Spells range depth v v.render := by
  induction h with
  | null => exact .null
  | bool b => cases b with
    | true => exact .yes
    | false => exact .no
  | integer word => exact .integer (spellsNumeral_ofInt _) (integer?_ofInt word)
  | string s => exact .string (spellsString_quote s)
  | @array depth vs elements ih =>
    have parts : ∀ p ∈ vs.map fun v => (v, v.render), Spells range depth p.1 p.2 := by
      intro p hp
      obtain ⟨v, hv, rfl⟩ := List.mem_map.mp hp
      exact ih v hv
    have spelled := Spells.array parts
    rw [List.map_map, List.map_map] at spelled
    rw [render, renderAll_eq_map]
    simpa [Function.comp_def] using spelled
  | @object depth ms members ih =>
    have named : ∀ p ∈ ms.map compact, p.Named := by
      intro p hp
      obtain ⟨m, hm, rfl⟩ := List.mem_map.mp hp
      exact ⟨nofun, spellsString_quote m.1, nofun⟩
    have parts : ∀ p ∈ ms.map compact, Spells range depth p.value p.text := by
      intro p hp
      obtain ⟨m, hm, rfl⟩ := List.mem_map.mp hp
      exact ih m hm
    have spelled := Spells.object named parts
    rw [List.map_map, List.map_map] at spelled
    rw [render, renderMembers_eq_map]
    simpa [Function.comp_def, compact, MemberSpelling.toMember] using spelled

/-! ## Lines -/

/-- A given text is checked character by character. -/
theorem visible_of_all {cs : List Char} (h : (cs.all fun c => decide (0x20 ≤ c.toNat)) = true) :
    ∀ c ∈ cs, 0x20 ≤ c.toNat := fun c hc =>
  of_decide_eq_true (List.all_eq_true.mp h c hc)

/-- No escape holds a control character: all of them are escaped. -/
theorem visible_escape (c : Char) : ∀ d ∈ escape c, 0x20 ≤ d.toNat := by
  by_cases control : c.toNat < 0x20
  · have all : ∀ k : Fin 32,
        ((escape (Char.ofNat k.val)).all fun d => decide (0x20 ≤ d.toNat)) = true := by decide
    have own := visible_of_all (all ⟨c.toNat, control⟩)
    rwa [Char.ofNat_toNat] at own
  · have pair : (['"', '\\', 'b', 't', 'n', 'f', 'r'].all fun e =>
        ['\\', e].all fun d => decide (0x20 ≤ d.toNat)) = true := by decide
    intro d hd
    unfold escape at hd
    repeat' split at hd
    all_goals first
      | exact visible_of_all (List.all_eq_true.mp pair _ (by decide)) d hd
      | exact absurd ‹c.toNat < 0x20› control
      | (rw [List.mem_singleton.mp hd]; omega)

theorem visible_quote (s : String) : ∀ c ∈ quote s, 0x20 ≤ c.toNat := by
  intro c hc
  unfold quote at hc
  rcases List.mem_append.mp hc with front | last
  · rcases List.mem_cons.mp front with rfl | inside
    · decide
    · obtain ⟨d, _, hd⟩ := List.mem_flatMap.mp inside
      exact visible_escape d c hd
  · rw [List.mem_singleton.mp last]
    decide

theorem visible_digits (n : Nat) : ∀ c ∈ Text.Decimal.digits n, 0x20 ≤ c.toNat := by
  intro c hc
  have range := of_decide_eq_true (Text.Decimal.isDigit_of_mem_digits n c hc)
  have low : 48 ≤ c.toNat := range.1
  omega

/-- Parts with commas between them hold what the parts hold, and commas. -/
theorem visible_separated {parts : List (List Char)} (h : ∀ part ∈ parts, ∀ c ∈ part, 0x20 ≤ c.toNat) :
    ∀ c ∈ separated parts, 0x20 ≤ c.toNat := by
  cases parts with
  | nil => exact fun _ hc => nomatch hc
  | cons part parts =>
    intro c hc
    rw [separated_cons] at hc
    rcases List.mem_append.mp hc with first | later
    · exact h part List.mem_cons_self c first
    · obtain ⟨other, hother, hc⟩ := List.mem_flatMap.mp later
      rcases List.mem_cons.mp hc with rfl | inside
      · decide
      · exact h other (List.mem_cons_of_mem part hother) c inside

/-- A text between two visible characters. -/
theorem visible_between {first last : Char} {text : List Char} (hf : 0x20 ≤ first.toNat)
    (hl : 0x20 ≤ last.toNat) (h : ∀ c ∈ text, 0x20 ≤ c.toNat) :
    ∀ c ∈ first :: text ++ [last], 0x20 ≤ c.toNat := by
  intro c hc
  rcases List.mem_append.mp hc with front | end'
  · rcases List.mem_cons.mp front with rfl | inside
    · exact hf
    · exact h c inside
  · rwa [List.mem_singleton.mp end']

/-- **The compact text of a value is one line**: it holds no control character. -/
theorem visible_render {depth : Nat} {v : Value} (h : Writable depth v) : ∀ c ∈ v.render, 0x20 ≤ c.toNat := by
  induction h with
  | null => exact visible_of_all (by decide)
  | bool b => cases b <;> exact visible_of_all (by decide)
  | @integer depth n range =>
    rw [render]
    unfold Text.Decimal.ofInt
    split
    · intro c hc
      rcases List.mem_cons.mp hc with rfl | digit
      · decide
      · exact visible_digits _ c digit
    · exact visible_digits _
  | string s => exact visible_quote s
  | @array depth vs _ ih =>
    rw [render, renderAll_eq_map]
    refine visible_between (by decide) (by decide) (visible_separated fun part hpart => ?_)
    obtain ⟨v, hv, rfl⟩ := List.mem_map.mp hpart
    exact ih v hv
  | @object depth ms _ ih =>
    rw [render, renderMembers_eq_map]
    refine visible_between (by decide) (by decide) (visible_separated fun part hpart => ?_)
    obtain ⟨m, hm, rfl⟩ := List.mem_map.mp hpart
    intro c hc
    change c ∈ quote m.1 ++ ':' :: m.2.render at hc
    rcases List.mem_append.mp hc with key | value
    · exact visible_quote m.1 c key
    · rcases List.mem_cons.mp value with rfl | inside
      · decide
      · exact ih m hm c inside

end Json

end SymbolIndex
