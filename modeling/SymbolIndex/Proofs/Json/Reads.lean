import SymbolIndex.Json.Form
import SymbolIndex.Proofs.Json.Spelled

/-!
# `Proofs.Json.Reads` — the reader follows the grammar

Every text that spells a value is read as that value, whatever comes after it that is no part of a number.
White space at the end of the text may be left over; where the next reader starts with passing over white
space, that makes no difference.

A reader of something smaller than all values, such as that of events, refuses some of the texts. So what a
reader makes of a text is stated as an option (`Reads`), and the loop of the reader is described by a fold
that may fail on the way: a text that is refused at one part is refused as a whole, wherever the part stands.

## Contents
- `Reads`, with `Reads.bind`, `Reads.colon`, `Reads.spaced`; `whole_reads`.
- `loopFrom`: one loop for arrays and objects; `elements_reads`, `members_reads`.
- `Spells.start`: the first character of a value; `value_reads`.
-/

namespace SymbolIndex.Json

open Text

variable {α β σ ι : Type} {text rest : List Char}

/-! ## What a reader makes of a text -/

/-- Which fault there was does not matter to whether there is a value. -/
theorem toOption_bind (x : Except Fault α) (f : α → Except Fault β) :
    (x >>= f).toOption = x.toOption.bind fun a => (f a).toOption := by
  cases x <;> rfl

theorem eq_ok_of_toOption {x : Except Fault α} {a : α} (h : x.toOption = some a) : x = .ok a := by
  cases x with
  | error fault => cases h
  | ok b => rw [Option.some.inj h]

/-- The reader takes `text` for `a?`, or refuses it if that is `none`, whatever follows that is no part of a
number. White space may be left over. -/
def Reads (reader : Reader α) (text : List Char) (a? : Option α) : Prop :=
  ∀ rest, EndsNumeral rest →
    ∃ left, Spaces left ∧ (reader (text ++ rest)).toOption = a?.map fun a => (a, left ++ rest)

namespace Reads

variable {reader : Reader α} {a? : Option α}

/-- A text that is read to its end. -/
theorem of_ok {a : α} (h : ∀ rest, EndsNumeral rest → reader (text ++ rest) = .ok (a, rest)) :
    Reads reader text (some a) := by
  intro rest ends
  refine ⟨[], nofun, ?_⟩
  rw [h rest ends]
  rfl

/-- A text is refused by a reader that refuses it whatever follows. -/
theorem refused (h : ∀ rest, (reader (text ++ rest)).toOption = none) : Reads reader text none :=
  fun rest _ => ⟨[], nofun, h rest⟩

/-- What was read is taken further. -/
theorem bind (h : Reads reader text a?) {f : α → Option β} {g : α × List Char → Except Fault (β × List Char)}
    (next : ∀ a rest, (g (a, rest)).toOption = (f a).map fun b => (b, rest)) :
    Reads (fun t => reader t >>= g) text (a?.bind f) := by
  intro rest ends
  obtain ⟨left, blank, read⟩ := h rest ends
  refine ⟨left, blank, ?_⟩
  rw [toOption_bind, read]
  cases a? with
  | none => rfl
  | some a => exact next a (left ++ rest)

/-- The colon between a key and its value. -/
theorem colon (h : Reads reader text a?) {between : List Char} (blank : Spaces between) :
    Reads (fun t => Json.colon t >>= reader) (between ++ ':' :: text) a? := by
  intro rest ends
  have separator : Json.colon (between ++ ':' :: text ++ rest) = .ok (text ++ rest) := by
    unfold Json.colon
    rw [List.append_assoc, skipSpace_spaces blank]
    rfl
  simp only [separator]
  exact h rest ends

/-- White space around a text makes no difference to a reader that passes over it. -/
theorem spaced (h : Reads reader text a?) (passes : ∀ t, reader (skipSpace t) = reader t)
    {before after : List Char} (blank : Spaces before) (more : Spaces after) :
    Reads reader (before ++ (text ++ after)) a? := by
  intro rest ends
  obtain ⟨left, blank', read⟩ := h (after ++ rest) (ends.spaced more)
  refine ⟨left ++ after, blank'.append more, ?_⟩
  rw [← passes, List.append_assoc, List.append_assoc, skipSpace_spaces blank, passes, read,
    List.append_assoc]

end Reads

/-- A value of another type is never read. -/
theorem Form.otherType_ne_ok (text : List Char) (a : α × List Char) : Form.otherType text ≠ .ok a := by
  unfold Form.otherType
  split
  · exact nofun
  · split
    · exact nofun
    · cases valueOver strict none _ with
      | error fault => exact nofun
      | ok read => exact nofun

/-- A whole text is read as what its reader makes of it. -/
theorem whole_reads {reader : Reader α} {a? : Option α} (h : Reads reader text a?) :
    (whole reader text).toOption = a? := by
  have ended : EndsNumeral [] := nofun
  obtain ⟨left, blank, read⟩ := h [] ended
  rw [List.append_nil] at read
  unfold whole
  rw [toOption_bind, read]
  cases a? with
  | none => rfl
  | some a =>
    have all : skipSpace (left ++ []) = [] := skipSpace_spaces blank []
    simp only [Option.map_some, Option.bind_some, all, if_true]
    rfl

/-! ## One loop for arrays and objects -/

/-- What follows is a comma or a closing bracket or brace, or nothing. -/
def EndsValue (rest : List Char) : Prop :=
  ∀ c ∈ rest.head?, c = ',' ∨ c = ']' ∨ c = '\x7d'

/-- What ends a value ends a number. -/
theorem EndsValue.endsNumeral (h : EndsValue rest) : EndsNumeral rest := by
  intro c hc
  rcases h c hc with rfl | rfl | rfl <;> decide

/-- The first part stands alone, and a comma before each of the others. -/
theorem separated_cons (part : List Char) (parts : List (List Char)) :
    Value.separated (part :: parts) = part ++ parts.flatMap (',' :: ·) := by
  induction parts generalizing part with
  | nil => simp [Value.separated, List.intercalate]
  | cons next parts ih =>
    have rest := ih next
    unfold Value.separated List.intercalate at rest ⊢
    rw [List.intersperse, List.flatten_cons, List.flatten_cons, rest, List.flatMap_cons]
    · rfl
    · exact List.cons_ne_nil _ _

/-- A text has more characters than parts, so it has fuel for them. -/
theorem length_le_flatMap (parts : List α) (write : α → List Char) :
    parts.length ≤ (parts.flatMap fun a => ',' :: write a).length := by
  induction parts with
  | nil => exact Nat.zero_le _
  | cons a parts ih =>
    rw [List.flatMap_cons, List.length_append, List.length_cons, List.length_cons]
    omega

/-- The parts of a list or an object after the first, and its end, end a value. -/
theorem endsValue_tail (parts : List α) (write : α → List Char) {close : Char}
    (hc : close = ']' ∨ close = '\x7d') (rest : List Char) :
    EndsValue ((parts.flatMap fun a => ',' :: write a) ++ close :: rest) := by
  intro c h
  cases parts with
  | nil => exact Option.some.inj h ▸ Or.inr hc
  | cons a parts => exact Or.inl (Option.some.inj h).symm

/-- Reads parts with commas between them up to a closing bracket or brace. -/
def loopFrom (close : Char) (step : σ → Reader σ) : (fuel : Nat) → (first : Bool) → σ → Reader σ
  | 0, _, _, _ => .error .unfinished
  | fuel + 1, first, state, text =>
    match skipSpace text with
    | [] => .error .unfinished
    | c :: rest =>
      if c = close then .ok (state, rest)
      else if first then do
        let (state, rest) ← step state (c :: rest)
        loopFrom close step fuel false state rest
      else if c = ',' then do
        let (state, rest) ← step state rest
        loopFrom close step fuel false state rest
      else .error .malformed

/-- The elements of an array are read by the common loop. -/
theorem elementsFrom_eq_loopFrom (step : σ → Reader σ) (fuel : Nat) (first : Bool) (state : σ)
    (text : List Char) :
    elementsFrom step fuel first state text = loopFrom ']' step fuel first state text := by
  induction fuel generalizing first state text with
  | zero => rfl
  | succ fuel ih =>
    unfold elementsFrom loopFrom
    cases skipSpace text <;> simp only [ih]

/-- Reads a member: its key, then what the step reads. -/
def memberStep (step : σ → String → Reader σ) (state : σ) : Reader σ := fun text => do
  let (name, rest) ← key strict text
  step state name rest

/-- The members of an object are read in a loop, too, each being a key and a value. -/
theorem membersFrom_eq_loopFrom (step : σ → String → Reader σ) (fuel : Nat) (first : Bool) (state : σ)
    (text : List Char) :
    membersFrom strict step fuel first state text =
      loopFrom '\x7d' (memberStep step) fuel first state text := by
  induction fuel generalizing first state text with
  | zero => rfl
  | succ fuel ih =>
    unfold membersFrom loopFrom memberStep
    simp only [ih, bind_assoc]
    cases skipSpace text <;> rfl

section Loop

variable {close : Char} {step : σ → Reader σ} {toText : ι → List Char} {f : σ → ι → Option σ}
  {parts : List ι}

/-- The loop ends at the closing character, whether or not a part has come before. -/
theorem loopFrom_close (closing : isSpace close = false) (fuel : Nat) (first : Bool) (state : σ)
    {left : List Char} (blank : Spaces left) (rest : List Char) :
    loopFrom close step (fuel + 1) first state (left ++ close :: rest) = .ok (state, rest) := by
  unfold loopFrom
  rw [skipSpace_spaces blank, skipSpace_cons closing]
  exact if_pos rfl

/-- The parts after the first, and the end. -/
theorem loopFrom_tail (bracket : close = ']' ∨ close = '\x7d') {fuel : Nat} {left : List Char} (state : σ)
    (reads : ∀ p ∈ parts, ∀ state, Reads (step state) (toText p) (f state p)) (room : parts.length < fuel)
    (blank : Spaces left) (rest : List Char) :
    (loopFrom close step fuel false state
        (left ++ ((parts.flatMap fun p => ',' :: toText p) ++ close :: rest))).toOption =
      (parts.foldlM f state).map fun state => (state, rest) := by
  have closing : isSpace close = false := by rcases bracket with rfl | rfl <;> decide
  have comma : ',' ≠ close := by rcases bracket with rfl | rfl <;> decide
  induction parts generalizing fuel left state with
  | nil =>
    obtain ⟨fuel, rfl⟩ := Nat.exists_eq_succ_of_ne_zero (Nat.ne_of_gt room)
    rw [List.flatMap_nil, List.nil_append, loopFrom_close closing fuel false state blank rest]
    rfl
  | cons p parts ih =>
    obtain ⟨fuel, rfl⟩ := Nat.exists_eq_succ_of_ne_zero (Nat.ne_of_gt (Nat.zero_lt_of_lt room))
    obtain ⟨left', blank', read⟩ := reads p List.mem_cons_self state _
      (endsValue_tail parts toText bracket rest).endsNumeral
    unfold loopFrom
    rw [skipSpace_spaces blank, List.flatMap_cons, List.cons_append, List.cons_append,
      skipSpace_cons (by decide), List.append_assoc]
    simp only [comma, Bool.false_eq_true, if_false, if_true]
    rw [toOption_bind, read, List.foldlM_cons]
    cases f state p with
    | none => rfl
    | some state' =>
      exact ih state' (fun q hq => reads q (List.mem_cons_of_mem p hq)) (Nat.lt_of_succ_lt_succ room)
        blank'

/-- **A list of parts is read part by part.** Each part starts with something that does not close the
list. -/
theorem loopFrom_reads (bracket : close = ']' ∨ close = '\x7d') (state : σ)
    (reads : ∀ p ∈ parts, ∀ state, Reads (step state) (toText p) (f state p))
    (passes : ∀ state t, step state (skipSpace t) = step state t)
    (starts : ∀ p ∈ parts, ∀ rest, ∃ c cs, skipSpace (toText p ++ rest) = c :: cs ∧ c ≠ close)
    (rest : List Char) {fuel : Nat} (room : (Value.separated (parts.map toText)).length + 1 < fuel) :
    (loopFrom close step fuel true state
        (Value.separated (parts.map toText) ++ close :: rest)).toOption =
      (parts.foldlM f state).map fun state => (state, rest) := by
  obtain ⟨fuel, rfl⟩ := Nat.exists_eq_succ_of_ne_zero (Nat.ne_of_gt (Nat.zero_lt_of_lt room))
  cases parts with
  | nil =>
    have closing : isSpace close = false := by rcases bracket with rfl | rfl <;> decide
    have blank : Spaces [] := nofun
    exact congrArg Except.toOption (loopFrom_close closing fuel true state blank rest)
  | cons p parts =>
    have size := length_le_flatMap parts toText
    rw [List.map_cons, separated_cons, List.flatMap_map] at room ⊢
    rw [List.length_append] at room
    obtain ⟨left, blank, read⟩ := reads p List.mem_cons_self state _
      (endsValue_tail parts toText bracket rest).endsNumeral
    obtain ⟨c, cs, first, other⟩ := starts p List.mem_cons_self
      ((parts.flatMap fun p => ',' :: toText p) ++ close :: rest)
    rw [← passes, first] at read
    unfold loopFrom
    rw [List.append_assoc, first]
    simp only [other, if_false, if_true]
    rw [toOption_bind, read, List.foldlM_cons]
    cases f state p with
    | none => rfl
    | some state' =>
      refine loopFrom_tail bracket state' (fun q hq => reads q (List.mem_cons_of_mem p hq)) ?_ blank rest
      omega

end Loop

/-- An array without elements. -/
theorem elements_blank {step : σ → Reader σ} {blank : List Char} (spaces : Spaces blank) (state : σ)
    (rest : List Char) :
    (elements step state (blank ++ ']' :: rest)).toOption = some (state, rest) := by
  unfold elements
  rw [elementsFrom_eq_loopFrom, loopFrom_close (by decide) _ _ _ spaces]
  rfl

/-- An object without members. -/
theorem members_blank {step : σ → String → Reader σ} {blank : List Char} (spaces : Spaces blank) (state : σ)
    (rest : List Char) :
    (members strict step state (blank ++ '\x7d' :: rest)).toOption = some (state, rest) := by
  unfold members
  rw [membersFrom_eq_loopFrom, loopFrom_close (by decide) _ _ _ spaces]
  rfl

/-- An array is read element by element. -/
theorem elements_reads {step : σ → Reader σ} {toText : ι → List Char} {f : σ → ι → Option σ}
    {parts : List ι} (state : σ) (reads : ∀ p ∈ parts, ∀ state, Reads (step state) (toText p) (f state p))
    (passes : ∀ state t, step state (skipSpace t) = step state t)
    (starts : ∀ p ∈ parts, ∀ rest, ∃ c cs, skipSpace (toText p ++ rest) = c :: cs ∧ c ≠ ']')
    (rest : List Char) :
    (elements step state (Value.separated (parts.map toText) ++ ']' :: rest)).toOption =
      (parts.foldlM f state).map fun state => (state, rest) := by
  unfold elements
  rw [elementsFrom_eq_loopFrom]
  refine loopFrom_reads (Or.inl rfl) state reads passes starts rest ?_
  rw [List.length_append, List.length_cons]
  omega

/-- **An object is read member by member.** -/
theorem members_reads {step : σ → String → Reader σ} {f : σ → MemberSpelling → Option σ}
    {parts : List MemberSpelling} (state : σ) (named : ∀ m ∈ parts, m.Named)
    (reads : ∀ m ∈ parts, ∀ state,
      Reads (step state m.key) (m.between ++ ':' :: m.text) (f state m)) (rest : List Char) :
    (members strict step state
        (Value.separated (parts.map MemberSpelling.toText) ++ '\x7d' :: rest)).toOption =
      (parts.foldlM f state).map fun state => (state, rest) := by
  -- in front of what the step reads there is the key
  have quoted : ∀ m ∈ parts, ∃ body, (∀ rest, m.toText ++ rest =
      m.before ++ ('"' :: (body ++ (m.between ++ ':' :: m.text ++ rest)))) ∧
        ∀ rest, string (body ++ rest) = .ok (m.key, rest) := by
    intro m hm
    obtain ⟨body, name, read⟩ := string_spelled (named m hm).name
    refine ⟨body, fun rest => ?_, read⟩
    simp only [MemberSpelling.toText, name, List.append_assoc, List.cons_append]
  unfold members
  rw [membersFrom_eq_loopFrom]
  refine loopFrom_reads (Or.inr rfl) state ?_ ?_ ?_ rest ?_
  · intro m hm state rest ends
    obtain ⟨body, text, read⟩ := quoted m hm
    obtain ⟨left, blank, value⟩ := reads m hm state rest ends
    refine ⟨left, blank, ?_⟩
    unfold memberStep key
    rw [text, skipSpace_spaces (named m hm).before, skipSpace_cons (by decide)]
    simp only [if_true, strict, read, bind, Except.bind]
    exact value
  · intro state t
    unfold memberStep key
    rw [skipSpace_idem]
  · intro m hm rest
    obtain ⟨body, text, _⟩ := quoted m hm
    refine ⟨'"', body ++ (m.between ++ ':' :: m.text ++ rest), ?_, by decide⟩
    rw [text, skipSpace_spaces (named m hm).before, skipSpace_cons (by decide)]
  · rw [List.length_append, List.length_cons]
    omega

/-! ## Values -/

/-- White space in front of a value is passed over. -/
theorem value_skipSpace (depth : Nat) (t : List Char) :
    value strict depth (skipSpace t) = value strict depth t := by
  cases depth <;> (unfold value valueOver; rw [skipSpace_idem])

variable {range : Numeral → Prop} {depth : Nat} {v : Value}

/-- A number starts with a sign or a digit, and so with nothing that starts another value. -/
theorem SpellsNumeral.start {n : Numeral} (h : SpellsNumeral n text) :
    ∃ c cs, text = c :: cs ∧ (c = '-' ∨ Decimal.isDigit c = true) := by
  cases h with
  | @mk negative whole fraction point scale exponent digits alone after power =>
    obtain ⟨some, all⟩ := digits
    cases negative with
    | true => exact ⟨'-', _, rfl, Or.inl rfl⟩
    | false =>
      cases whole with
      | nil => exact absurd rfl some
      | cons c whole => exact ⟨c, _, rfl, Or.inr (all c List.mem_cons_self)⟩

/-- What the characters that numbers start with are not. -/
theorem numeral_start {c : Char} (h : c = '-' ∨ Text.Decimal.isDigit c = true) : isSpace c = false ∧
    c ≠ ']' ∧ c ≠ 'n' ∧ c ≠ 't' ∧ c ≠ 'f' ∧ c ≠ '"' := by
  rcases h with rfl | digit
  · decide
  · have range := of_decide_eq_true digit
    have low : 48 ≤ c.toNat := range.1
    have high : c.toNat ≤ 57 := range.2
    have differ : ∀ d : Char, (d.toNat < 48 ∨ 57 < d.toNat) → c ≠ d := by
      rintro d out rfl
      omega
    refine ⟨?_, differ _ ?_, differ _ ?_, differ _ ?_, differ _ ?_, differ _ ?_⟩
    · simp only [isSpace, Bool.or_eq_false_iff, decide_eq_false_iff_not]
      exact ⟨⟨⟨differ _ (by decide), differ _ (by decide)⟩, differ _ (by decide)⟩, differ _ (by decide)⟩
    all_goals decide

/-- How a value starts: not with a closing bracket, and with a quote only if it is a string. -/
theorem Spells.start (h : Spells range depth v text) :
    ∃ c cs, (∀ rest, skipSpace (text ++ rest) = c :: (cs ++ rest)) ∧ c ≠ ']' ∧
      (c = '"' → ∃ s, v = .string s) := by
  have first {c : Char} {cs : List Char} (space : isSpace c = false) (rest : List Char) :
      skipSpace (c :: cs ++ rest) = c :: (cs ++ rest) := skipSpace_cons space _
  induction h with
  | null | yes | no => exact ⟨_, _, first (by decide), by decide, fun same => absurd same (by decide)⟩
  | integer numeral whole =>
    obtain ⟨c, cs, rfl, start⟩ := numeral.start
    obtain ⟨space, bracket, _, _, _, quote⟩ := numeral_start start
    exact ⟨c, cs, first space, bracket, fun same => absurd same quote⟩
  | real numeral broken within =>
    obtain ⟨c, cs, rfl, start⟩ := numeral.start
    obtain ⟨space, bracket, _, _, _, quote⟩ := numeral_start start
    exact ⟨c, cs, first space, bracket, fun same => absurd same quote⟩
  | @string depth s text quoted =>
    obtain ⟨body, rfl, _⟩ := string_spelled quoted
    exact ⟨_, _, first (by decide), by decide, fun _ => ⟨s, rfl⟩⟩
  | emptyArray | array | emptyObject | object =>
    exact ⟨_, _, first (by decide), by decide, fun same => absurd same (by decide)⟩
  | @spaced depth v before text after spaces spelled more ih =>
    obtain ⟨c, cs, start, bracket, quote⟩ := ih
    refine ⟨c, cs ++ after, fun rest => ?_, bracket, quote⟩
    rw [List.append_assoc, List.append_assoc, skipSpace_spaces spaces, start, List.append_assoc]

/-- Parts are appended one by one, in their order. -/
theorem foldlM_concat (g : ι → α) (parts : List ι) (done : List α) :
    parts.foldlM (fun done p => some (done ++ [g p])) done = some (done ++ parts.map g) := by
  induction parts generalizing done with
  | nil => simp
  | cons p parts ih => simp [ih]

/-- A number, at any depth. -/
theorem value_of_number (h : ∃ c cs, text = c :: cs ∧ (c = '-' ∨ Decimal.isDigit c = true))
    (read : ∀ rest, EndsNumeral rest → number (text ++ rest) = .ok (v, rest)) :
    Reads (value strict depth) text (some v) := by
  obtain ⟨c, cs, rfl, start⟩ := h
  obtain ⟨space, _, null, true', false', quote⟩ := numeral_start start
  refine .of_ok fun rest ends => ?_
  have all := read rest ends
  rw [List.cons_append] at all ⊢
  cases depth <;>
  · unfold value valueOver
    rw [skipSpace_cons space]
    simp only [null, true', false', quote, start, if_false, if_true]
    exact all

/-- Reads one more element of an array. -/
def elementStep (nested : Reader Value) (vs : List Value) : Reader (List Value) := fun t => do
  let (v, t) ← nested t
  .ok (vs ++ [v], t)

/-- Reads the value of one more member of an object. -/
def fieldStep (nested : Reader Value) (ms : List (String × Value)) (name : String) :
    Reader (List (String × Value)) := fun t => do
  let t ← colon t
  let (v, t) ← nested t
  .ok (ms ++ [(name, v)], t)

/-- An array is its elements between brackets, one level deeper. -/
theorem value_of_elements {body : List Char} {vs : List Value}
    (loop : ∀ rest, (elements (elementStep (value strict depth)) [] (body ++ ']' :: rest)).toOption =
      some (vs, rest)) :
    Reads (value strict (depth + 1)) ('[' :: (body ++ [']'])) (some (.array vs)) := by
  refine .of_ok fun rest _ => ?_
  have all := eq_ok_of_toOption (loop rest)
  rw [List.cons_append, List.append_assoc, List.singleton_append]
  unfold value valueOver
  rw [skipSpace_cons (by decide)]
  simp only [Char.reduceEq, if_false, if_true]
  exact congrArg (· >>= fun read => Except.ok (Value.array read.1, read.2)) all

/-- An object is its members between braces, one level deeper. -/
theorem value_of_members {body : List Char} {ms : List (String × Value)}
    (loop : ∀ rest, (members strict (fieldStep (value strict depth)) [] (body ++ '\x7d' :: rest)).toOption =
      some (ms, rest)) :
    Reads (value strict (depth + 1)) ('\x7b' :: (body ++ ['\x7d'])) (some (.object ms)) := by
  refine .of_ok fun rest _ => ?_
  have all := eq_ok_of_toOption (loop rest)
  rw [List.cons_append, List.append_assoc, List.singleton_append]
  unfold value valueOver
  rw [skipSpace_cons (by decide)]
  simp only [Char.reduceEq, if_false, if_true]
  exact congrArg (· >>= fun read => Except.ok (Value.object read.1, read.2)) all

/-- **A value is read however it is spelled**, unless one of its numbers is too large. -/
theorem value_reads (finite : ∀ n, range n → n.overflows = false) (h : Spells range depth v text) :
    Reads (value strict depth) text (some v) := by
  induction h with
  | @null depth => exact .of_ok fun rest _ => by cases depth <;> rfl
  | @yes depth => exact .of_ok fun rest _ => by cases depth <;> rfl
  | @no depth => exact .of_ok fun rest _ => by cases depth <;> rfl
  | integer numeral whole =>
    exact value_of_number numeral.start fun rest ends => number_integer numeral whole ends
  | real numeral broken within =>
    exact value_of_number numeral.start fun rest ends => number_real numeral broken (finite _ within) ends
  | @string depth s text quoted =>
    obtain ⟨body, rfl, read⟩ := string_spelled quoted
    refine .of_ok fun rest _ => ?_
    rw [List.cons_append]
    cases depth <;>
    · unfold value valueOver
      rw [skipSpace_cons (by decide)]
      simp only [Char.reduceEq, if_false, if_true, strict, read, bind, Except.bind]
  | emptyArray spaces => exact value_of_elements fun rest => elements_blank spaces [] rest
  | @array depth parts spelled ih =>
    have step : ∀ p ∈ parts, ∀ vs,
        Reads (elementStep (value strict depth) vs) p.2 (some (vs ++ [p.1])) :=
      fun p hp vs => (ih p hp).bind (f := fun v => some (vs ++ [v])) fun _ _ => rfl
    have passes : ∀ vs t, elementStep (value strict depth) vs (skipSpace t) =
        elementStep (value strict depth) vs t := by
      intro vs t
      unfold elementStep
      rw [value_skipSpace]
    refine value_of_elements fun rest => (elements_reads [] step passes ?_ rest).trans ?_
    · intro p hp rest
      obtain ⟨c, cs, start, bracket, _⟩ := (spelled p hp).start
      exact ⟨c, cs ++ rest, start rest, bracket⟩
    · rw [foldlM_concat]
      rfl
  | emptyObject spaces => exact value_of_members fun rest => members_blank spaces [] rest
  | @object depth parts named members ih =>
    have step : ∀ m ∈ parts, ∀ ms, Reads (fieldStep (value strict depth) ms m.key)
        (m.between ++ ':' :: m.text) (some (ms ++ [m.toMember])) := by
      intro m hm ms
      refine Reads.colon ?_ (named m hm).between
      exact (ih m hm).bind (f := fun v => some (ms ++ [(m.key, v)])) fun _ _ => rfl
    refine value_of_members fun rest => (members_reads [] named step rest).trans ?_
    rw [foldlM_concat]
    rfl
  | spaced spaces spelled more ih => exact ih.spaced (value_skipSpace _) spaces more

end SymbolIndex.Json
