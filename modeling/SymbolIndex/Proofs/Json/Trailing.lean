import SymbolIndex.Proofs.Json.Scalar

/-!
# `Proofs.Json.Trailing` — white space after a text

White space at the end of a text changes nothing of what is read before it: a reader that gives a value
gives the same value if the text goes on with white space, and leaves that white space over. For most
readers what follows need not even be white space, since they stop at a character of their own; a number
alone ends where the digits end.

Every reader is put together from smaller ones, so the statement is kept by the ways in which that is done
(`Follows.bind`, `Follows.ite`) and is then read off the code, reader by reader.

## Contents
- `Follows`, `Trailing`; `skipSpace_append`.
- Strings, numbers, `elementsFrom_trailing`, `membersFrom_trailing`, `value_trailing`.
- `whole_trailing`: texts that are one value.
-/

namespace SymbolIndex.Json

variable {α β γ δ : Type} {tail : List Char}

/-! ## Computations that follow one another -/

/-- Where `x` gives something, `y` gives the same with `extend` applied. -/
def Follows (extend : α → β) (x : Except Fault α) (y : Except Fault β) : Prop :=
  ∀ a, x = .ok a → y = .ok (extend a)

namespace Follows

variable {extend : α → β} {extend' : γ → δ} {x x' : Except Fault α} {y y' : Except Fault β}

theorem error (fault : Fault) : Follows extend (.error fault) y := nofun

theorem ok (a : α) : Follows extend (.ok a) (.ok (extend a)) := by
  rintro _ ⟨⟩
  rfl

/-- Readers that follow one another keep to each other, step by step. -/
theorem bind {f : α → Except Fault γ} {g : β → Except Fault δ} (h : Follows extend x y)
    (next : ∀ a, Follows extend' (f a) (g (extend a))) : Follows extend' (x >>= f) (y >>= g) := by
  intro c hc
  cases x with
  | error fault => cases hc
  | ok a =>
    rw [h a rfl]
    exact next a c hc

/-- A branch is taken by both, if both look at the same. -/
theorem ite {c : Prop} [Decidable c] (h : Follows extend x y) (h' : Follows extend x' y') :
    Follows extend (if c then x else x') (if c then y else y') := by
  split
  · exact h
  · exact h'

end Follows

/-- What is read, with more text left over. -/
def leaving (tail : List Char) (read : α × List Char) : α × List Char :=
  (read.1, read.2 ++ tail)

/-- What a reader gives for a text, it gives for the text with `tail` after it, and leaves `tail` over. -/
def Trailing (tail : List Char) (reader : Reader α) : Prop :=
  ∀ text, Follows (leaving tail) (reader text) (reader (text ++ tail))

/-- A text of nothing but white space. -/
def Spaces (tail : List Char) : Prop :=
  ∀ c ∈ tail, isSpace c = true

/-- White space ends at the same character, whatever comes after that one. -/
theorem skipSpace_append {text rest : List Char} {c : Char} (h : skipSpace text = c :: rest)
    (tail : List Char) : skipSpace (text ++ tail) = c :: (rest ++ tail) := by
  unfold skipSpace at h ⊢
  rw [List.dropWhile_append, h]
  rfl

/-- A reader that looks at the first character after white space. -/
theorem Follows.afterSpace {extend : α → β} {fault : Fault} {f : Char → List Char → Except Fault α}
    {g : Char → List Char → Except Fault β} (text : List Char)
    (h : ∀ c rest, Follows extend (f c rest) (g c (rest ++ tail))) :
    Follows extend (match skipSpace text with | [] => .error fault | c :: rest => f c rest)
      (match skipSpace (text ++ tail) with | [] => .error fault | c :: rest => g c rest) := by
  cases first : skipSpace text with
  | nil => exact .error fault
  | cons c rest =>
    rw [skipSpace_append first]
    exact h c rest

/-- A keyword has a length of its own, so it ends before the tail. -/
theorem keyword_trailing (letters text : List Char) :
    Follows (· ++ tail) (keyword letters text) (keyword letters (text ++ tail)) := by
  induction letters generalizing text with
  | nil => exact .ok text
  | cons k ks ih =>
    cases text with
    | nil => exact .error _
    | cons c cs => exact .ite (ih cs) (.error _)

/-- A colon is looked for after white space, and is found in front of the tail. -/
theorem colon_trailing (text : List Char) :
    Follows (· ++ tail) (colon text) (colon (text ++ tail)) :=
  Follows.afterSpace text fun _ rest => .ite (.ok rest) (.error _)

/-! ## Strings -/

/-- A hexadecimal digit has one byte. -/
theorem utf8Size_of_value? {c : Char} {n : Nat} (h : Text.Hex.value? c = some n) : c.utf8Size = 1 := by
  rw [Char.utf8Size_eq_one_iff, UInt32.le_iff_toNat_le]
  have upTo (d : Char) (le : c ≤ d) (ascii : d.val.toNat ≤ 127) : c.val.toNat ≤ 127 :=
    Nat.le_trans (UInt32.le_iff_toNat_le.mp le) ascii
  unfold Text.Hex.value? at h
  split at h
  · exact upTo '9' (And.right ‹_›) (by decide)
  · split at h
    · exact upTo 'f' (And.right ‹_›) (by decide)
    · split at h
      · exact upTo 'F' (And.right ‹_›) (by decide)
      · cases h

/-- Hexadecimal digits have a byte each. -/
theorem bytes_of_number? {cs : List Char} {n : Nat} (h : Text.Hex.number? cs = some n) :
    cs.foldl (fun n c => n + c.utf8Size) 0 = cs.length := by
  have all : ∀ (cs : List Char) (value bytes : Nat),
      (cs.foldlM (fun n c => (Text.Hex.value? c).map (16 * n + ·)) value).isSome = true →
        cs.foldl (fun n c => n + c.utf8Size) bytes = bytes + cs.length := by
    intro cs
    induction cs with
    | nil => exact fun _ _ _ => rfl
    | cons c cs ih =>
      intro value bytes digits
      rw [List.foldlM_cons] at digits
      cases digit : Text.Hex.value? c with
      | none => rw [digit] at digits; cases digits
      | some d =>
        rw [digit] at digits
        rw [List.foldl_cons, ih _ _ digits, utf8Size_of_value? digit, List.length_cons, Nat.add_assoc,
          Nat.add_comm 1]
  rw [all cs 0 0 (Option.isSome_of_mem h), Nat.zero_add]

/-- Four hexadecimal digits are counted in bytes, all of which lie in front of the tail. -/
theorem hexUnit_trailing : Trailing tail hexUnit := by
  rintro text ⟨n, rest⟩ h
  unfold hexUnit at h ⊢
  dsimp only at h
  split at h
  · cases h
  · rename_i four
    cases digits : Text.Hex.number? (text.take 4) with
    | none => rw [digits] at h; cases h
    | some m =>
      rw [digits] at h
      cases h
      -- four bytes of digits are four characters, so that nothing of the tail is taken
      have long : 4 ≤ text.length := by
        rw [bytes_of_number? digits, List.length_take] at four
        omega
      rw [List.take_append_of_le_length long, List.drop_append_of_le_length long, digits]
      exact if_neg four

/-- The second half of a pair is read, or is missing, in front of the tail. -/
theorem lowSurrogate_trailing : Trailing tail lowSurrogate := by
  intro text
  unfold lowSurrogate
  split
  · exact .error _
  · exact .error _
  · exact (hexUnit_trailing _).bind fun _ => .ite (.ok _) (.error _)
  · exact .error _

/-- A pair of escapes is put together from halves that do not see the tail. -/
theorem unicodeEscape_trailing : Trailing tail unicodeEscape := by
  intro text
  unfold unicodeEscape
  refine (hexUnit_trailing text).bind fun (n, rest) => ?_
  refine .ite (.error _) (.ite ?_ (.ok (Char.ofNat n, rest)))
  refine (lowSurrogate_trailing rest).bind fun (m, rest) => ?_
  dsimp only [leaving]
  generalize Char.ofNat (0x10000 + (n - 0xD800) * 0x400 + (m - 0xDC00)) = c
  exact .ok (c, rest)

/-- The characters of a string end at its quote. More fuel does no harm, since the text is longer, too. -/
theorem stringFrom_trailing {escaped : Reader Char} (h : Trailing tail escaped) {fuel more : Nat}
    (enough : fuel ≤ more) (done text : List Char) :
    Follows (leaving tail) (stringFrom escaped fuel done text) (stringFrom escaped more done (text ++ tail)) := by
  -- the longer text comes with more fuel, and more of it does no harm
  induction fuel generalizing more done text with
  | zero => exact .error _
  | succ fuel ih =>
    obtain ⟨more, rfl⟩ : ∃ n, more = n + 1 := ⟨more - 1, by omega⟩
    have fewer : fuel ≤ more := Nat.le_of_succ_le_succ enough
    cases text with
    | nil => exact .error _
    | cons c rest =>
      refine .ite (.ok _) (.ite ?_ (.ite (.error _) (ih fewer _ _)))
      cases rest with
      | nil => exact .error _
      | cons e rest =>
        refine .ite ((h rest).bind fun _ => ih fewer _ _) ?_
        cases shortEscape? e with
        | none => exact .error _
        | some c => exact ih fewer _ _

/-- A string ends at its quote, so anything may follow it. -/
theorem string_trailing : Trailing tail string := by
  intro text
  have fewer : text.length + 1 ≤ (text ++ tail).length + 1 := by
    rw [List.length_append]
    omega
  exact (stringFrom_trailing unicodeEscape_trailing fewer _ text).bind fun _ => .ok _

/-! ## Numbers -/

/-- No white space continues a number. -/
theorem Spaces.endsNumeral (blank : Spaces tail) : EndsNumeral tail := by
  intro c first
  have space := blank c (List.mem_of_mem_head? first)
  simp only [isSpace, Bool.or_eq_true, decide_eq_true_eq] at space
  rcases space with ((rfl | rfl) | rfl) | rfl <;> decide

namespace Numeral

open Text

/-- The digits at the start of a text end where the text does. -/
theorem digits_append (ends : EndsNumeral tail) (text : List Char) :
    (text ++ tail).takeWhile Decimal.isDigit = text.takeWhile Decimal.isDigit ∧
      (text ++ tail).dropWhile Decimal.isDigit = text.dropWhile Decimal.isDigit ++ tail := by
  induction text with
  | nil => exact ⟨takeWhile_ended ends, dropWhile_ended ends⟩
  | cons c text ih =>
    rw [List.cons_append]
    by_cases digit : Decimal.isDigit c = true
    · simp only [List.takeWhile_cons_of_pos digit, List.dropWhile_cons_of_pos digit, ih, and_self]
    · simp only [List.takeWhile_cons_of_neg digit, List.dropWhile_cons_of_neg digit, List.cons_append,
        and_self]

/-- Digits end where the text does, if what follows it is no digit. -/
theorem readDigits_trailing (ends : EndsNumeral tail) (atEnd : Fault) :
    Trailing tail (readDigits atEnd) := by
  intro text
  obtain ⟨taken, dropped⟩ := digits_append ends text
  unfold readDigits
  rw [taken, dropped]
  split
  · exact .error _
  · exact .ok _

theorem readWhole_trailing (ends : EndsNumeral tail) (atEnd : Fault) : Trailing tail (readWhole atEnd) :=
  fun text => (readDigits_trailing ends atEnd text).bind fun _ => .ite (.error _) (.ok _)

/-- There is a fraction if there is a point, and what follows a number is none. -/
theorem readFraction_trailing (ends : EndsNumeral tail) (atEnd : Fault) :
    Trailing tail (readFraction atEnd) := by
  intro text
  cases text with
  | nil =>
    rw [List.nil_append, readFraction_ended atEnd ends]
    exact .ok ([], [])
  | cons c text =>
    rw [List.cons_append]
    by_cases point : c = '.'
    · subst point
      exact readDigits_trailing ends atEnd text
    · rw [readFraction_of_ne point, readFraction_of_ne point]
      exact .ok ([], c :: text)

/-- A sign is the first character of an exponent, so there is one in front of the tail or none at all. -/
theorem readSign_append (c : Char) (text tail : List Char) :
    readSign (c :: text ++ tail) = leaving tail (readSign (c :: text)) := by
  by_cases minus : c = '-'
  · subst minus
    rfl
  · by_cases plus : c = '+'
    · subst plus
      rfl
    · have unsigned (text : List Char) : readSign (c :: text) = (false, c :: text) := by
        unfold readSign
        split <;> simp_all
      rw [List.cons_append, unsigned, unsigned]
      rfl

/-- There is an exponent if there is a letter for it, and what follows a number is none. -/
theorem readExponent_trailing (ends : EndsNumeral tail) (atEnd : Fault) :
    Trailing tail (readExponent atEnd) := by
  intro text
  cases text with
  | nil =>
    rw [List.nil_append, readExponent_ended atEnd ends]
    exact .ok (none, [])
  | cons c text =>
    rw [List.cons_append]
    unfold readExponent
    refine .ite ?_ (.ok (none, c :: text))
    cases text with
    | nil => exact .error (noDigit atEnd [])
    | cons d text =>
      rw [readSign_append]
      exact (readDigits_trailing ends atEnd _).bind fun read =>
        .ok (some (Exponent.mk (readSign (d :: text)).1 read.1), read.2)

/-- A number is read part by part, and none of its parts takes up the tail. -/
theorem readAfterSign_trailing (ends : EndsNumeral tail) (atEnd : Fault) (negative : Bool) :
    Trailing tail (readAfterSign atEnd negative) := fun text =>
  (readWhole_trailing ends atEnd text).bind fun whole =>
    (readFraction_trailing ends atEnd whole.2).bind fun fraction =>
      (readExponent_trailing ends atEnd fraction.2).bind fun exponent =>
        .ok ((⟨negative, whole.1, fraction.1, exponent.1⟩ : Numeral), exponent.2)

theorem read_trailing (ends : EndsNumeral tail) (atEnd : Fault) : Trailing tail (read atEnd) := by
  intro text
  cases text with
  | nil => exact .error (noDigit atEnd [])
  | cons c text =>
    by_cases minus : c = '-'
    · subst minus
      exact readAfterSign_trailing ends atEnd true text
    · have plain (text : List Char) : read atEnd (c :: text) = readAfterSign atEnd false (c :: text) :=
        read_plain atEnd fun _ same => minus (List.cons.inj same).1
      rw [List.cons_append, plain, plain]
      exact readAfterSign_trailing ends atEnd false (c :: text)

end Numeral

/-- **A number ends** where anything follows that is no part of it. -/
theorem number_trailing (ends : EndsNumeral tail) : Trailing tail number := by
  intro text
  refine (Numeral.read_trailing ends .unfinished text).bind fun (n, rest) => ?_
  dsimp only [leaving]
  cases n.integer? with
  | some i => exact .ok (Value.integer i, rest)
  | none =>
    -- the spelling is what was taken off the text
    have spelling : (text ++ tail).take ((text ++ tail).length - (rest ++ tail).length) =
        text.take (text.length - rest.length) := by
      rw [List.length_append, List.length_append, Nat.add_sub_add_right,
        List.take_append_of_le_length (Nat.sub_le _ _)]
    rw [spelling]
    exact .ite (.error _) (.ok (Value.real _, rest))

/-! ## Arrays and objects -/

section Loops

variable {σ : Type} {fuel more : Nat}

/-- The elements of an array end at its bracket, if each of them ends in front of what follows it. -/
theorem elementsFrom_trailing {step : σ → Reader σ} (h : ∀ state, Trailing tail (step state))
    (enough : fuel ≤ more) (first : Bool) (state : σ) (text : List Char) :
    Follows (leaving tail) (elementsFrom step fuel first state text)
      (elementsFrom step more first state (text ++ tail)) := by
  induction fuel generalizing more first state text with
  | zero => exact .error _
  | succ fuel ih =>
    obtain ⟨more, rfl⟩ : ∃ n, more = n + 1 := ⟨more - 1, by omega⟩
    have fewer : fuel ≤ more := Nat.le_of_succ_le_succ enough
    refine Follows.afterSpace text fun c rest => .ite (.ok (state, rest)) (.ite ?_ (.ite ?_ (.error _)))
    · exact (h state (c :: rest)).bind fun read => ih fewer false read.1 read.2
    · exact (h state rest).bind fun read => ih fewer false read.1 read.2

/-- An array that is read with the fuel of its own text is read with that of the longer one. -/
theorem elements_trailing {step : σ → Reader σ} (h : ∀ state, Trailing tail (step state)) (state : σ) :
    Trailing tail (elements step state) := by
  intro text
  refine elementsFrom_trailing h ?_ true state text
  rw [List.length_append]
  omega

theorem key_trailing {lex : Lexicon} (h : Trailing tail lex.string) : Trailing tail (key lex) := fun text =>
  Follows.afterSpace text fun _ rest => .ite (h rest) (.error _)

/-- The members of an object end at its brace, likewise. -/
theorem membersFrom_trailing {lex : Lexicon} {step : σ → String → Reader σ}
    (hkey : Trailing tail lex.string) (h : ∀ state name, Trailing tail (step state name))
    (enough : fuel ≤ more) (first : Bool) (state : σ) (text : List Char) :
    Follows (leaving tail) (membersFrom lex step fuel first state text)
      (membersFrom lex step more first state (text ++ tail)) := by
  induction fuel generalizing more first state text with
  | zero => exact .error _
  | succ fuel ih =>
    obtain ⟨more, rfl⟩ : ∃ n, more = n + 1 := ⟨more - 1, by omega⟩
    have fewer : fuel ≤ more := Nat.le_of_succ_le_succ enough
    refine Follows.afterSpace text fun c rest => .ite (.ok (state, rest)) (.ite ?_ (.ite ?_ (.error _)))
    · exact (key_trailing hkey (c :: rest)).bind fun name =>
        (h state name.1 name.2).bind fun read => ih fewer false read.1 read.2
    · exact (key_trailing hkey rest).bind fun name =>
        (h state name.1 name.2).bind fun read => ih fewer false read.1 read.2

theorem members_trailing {lex : Lexicon} {step : σ → String → Reader σ} (hkey : Trailing tail lex.string)
    (h : ∀ state name, Trailing tail (step state name)) (state : σ) :
    Trailing tail (members lex step state) := by
  intro text
  refine membersFrom_trailing hkey h ?_ true state text
  rw [List.length_append]
  omega

end Loops

/-! ## Values -/

/-- A value of one level, if that holds for the values nested in it. -/
theorem valueOver_trailing (ends : EndsNumeral tail) {nested : Option (Reader Value)}
    (h : ∀ reader ∈ nested, Trailing tail reader) : Trailing tail (valueOver strict nested) := by
  intro text
  refine Follows.afterSpace text fun c rest => ?_
  refine .ite ?null (.ite ?true (.ite ?false (.ite ?string (.ite ?number (.ite ?array
    (.ite ?object (.error _)))))))
  case null => exact (keyword_trailing _ rest).bind fun rest => .ok (Value.null, rest)
  case true => exact (keyword_trailing _ rest).bind fun rest => .ok (Value.bool true, rest)
  case false => exact (keyword_trailing _ rest).bind fun rest => .ok (Value.bool false, rest)
  case string => exact (string_trailing rest).bind fun read => .ok (Value.string read.1, read.2)
  case number => exact number_trailing ends (c :: rest)
  case array =>
    cases nested with
    | none => exact .error _
    | some nested =>
      refine (elements_trailing (fun vs t => ?_) [] rest).bind fun read => .ok (Value.array read.1, read.2)
      exact (h nested rfl t).bind fun read => .ok (vs ++ [read.1], read.2)
  case object =>
    cases nested with
    | none => exact .error _
    | some nested =>
      refine (members_trailing string_trailing (fun ms name t => ?_) [] rest).bind fun read =>
        .ok (Value.object read.1, read.2)
      exact (colon_trailing t).bind fun t =>
        (h nested rfl t).bind fun read => .ok (ms ++ [(name, read.1)], read.2)

/-- **A value ends** where anything follows that is no part of a number. -/
theorem value_trailing (ends : EndsNumeral tail) (depth : Nat) : Trailing tail (value strict depth) := by
  induction depth with
  | zero => exact valueOver_trailing ends nofun
  | succ depth ih =>
    refine valueOver_trailing ends fun reader nested => ?_
    cases nested
    exact ih

/-- **A text that is one value is one with white space after it.** -/
theorem whole_trailing {reader : Reader α} (h : Trailing tail reader) (blank : Spaces tail)
    {text : List Char} {a : α} (ok : whole reader text = .ok a) : whole reader (text ++ tail) = .ok a := by
  have both : Follows id (whole reader text) (whole reader (text ++ tail)) := by
    refine (h text).bind fun (b, rest) => ?_
    show Follows id (if skipSpace rest = [] then .ok b else .error .malformed)
      (if skipSpace (rest ++ tail) = [] then .ok b else .error .malformed)
    split
    · rename_i ended
      have all : skipSpace (rest ++ tail) = [] := by
        unfold skipSpace at ended ⊢
        rw [List.dropWhile_append, ended]
        exact List.dropWhile_eq_nil_iff.mpr blank
      rw [if_pos all]
      exact .ok b
    · exact .error _
  exact both a ok

end SymbolIndex.Json
