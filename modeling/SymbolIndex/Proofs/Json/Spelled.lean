import Mathlib.Data.List.DropRight
import SymbolIndex.Proofs.Json.Grammar

/-!
# `Proofs.Json.Spelled` — numbers and strings as they are spelled

The readers of numbers and of strings take what the grammar lets stand for them. A string ends with its
closing quote, so that anything may follow it; a number has to be followed by what is no part of one, and so
has each of its parts, by what is no part of itself.

## Contents
- `skipSpace_spaces`: white space.
- `Numeral.read_spelled`; `number_integer`, `number_real`.
- `stringFrom_char`, `string_spelled`.
-/

namespace SymbolIndex.Json

open Text

variable {text rest : List Char}

/-! ## White space -/

theorem skipSpace_cons {c : Char} (h : isSpace c = false) (rest : List Char) :
    skipSpace (c :: rest) = c :: rest :=
  List.dropWhile_cons_of_neg (Bool.eq_false_iff.mp h)

theorem skipSpace_spaces {before : List Char} (blank : Spaces before) (text : List Char) :
    skipSpace (before ++ text) = skipSpace text :=
  List.dropWhile_append_of_pos blank

theorem skipSpace_idem (text : List Char) : skipSpace (skipSpace text) = skipSpace text :=
  List.dropWhile_idempotent isSpace text

theorem Spaces.append {before after : List Char} (h : Spaces before) (h' : Spaces after) :
    Spaces (before ++ after) :=
  List.forall_mem_append.mpr ⟨h, h'⟩

/-- White space may stand before what ends a number. -/
theorem EndsNumeral.spaced {after : List Char} (blank : Spaces after) (ends : EndsNumeral rest) :
    EndsNumeral (after ++ rest) := by
  cases after with
  | nil => exact ends
  | cons c after => exact fun d first => Spaces.endsNumeral blank d first

/-! ## Numbers -/

namespace Numeral

/-- What follows is no digit. -/
def EndsDigits (rest : List Char) : Prop :=
  ∀ c ∈ rest.head?, Decimal.isDigit c = false

theorem readDigits_spelled (atEnd : Fault) {cs : List Char} (digits : Digits cs) (ends : EndsDigits rest) :
    readDigits atEnd (cs ++ rest) = .ok (cs, rest) := by
  have taken : rest.takeWhile Decimal.isDigit = [] ∧ rest.dropWhile Decimal.isDigit = rest := by
    cases rest with
    | nil => exact ⟨rfl, rfl⟩
    | cons c rest =>
      have other : ¬ Decimal.isDigit c = true := Bool.eq_false_iff.mp (ends c rfl)
      exact ⟨List.takeWhile_cons_of_neg other, List.dropWhile_cons_of_neg other⟩
  unfold readDigits
  rw [List.takeWhile_append_of_pos digits.2, List.dropWhile_append_of_pos digits.2, taken.1, taken.2,
    List.append_nil]
  split
  · exact absurd rfl digits.1
  · rfl

theorem readWhole_spelled (atEnd : Fault) {whole : List Char} (digits : Digits whole)
    (alone : whole.head? = some '0' → whole = ['0']) (ends : EndsDigits rest) :
    readWhole atEnd (whole ++ rest) = .ok (whole, rest) := by
  have single : ¬ (whole.head? = some '0' ∧ whole.length ≠ 1) := by
    rintro ⟨zero, long⟩
    exact long (by rw [alone zero]; rfl)
  unfold readWhole
  rw [readDigits_spelled atEnd digits ends]
  simp only [bind, Except.bind, if_neg single]

theorem readFraction_spelled (atEnd : Fault) {fraction point : List Char}
    (h : SpellsFraction fraction point) (ends : EndsDigits rest) (last : ∀ more, rest ≠ '.' :: more) :
    readFraction atEnd (point ++ rest) = .ok (fraction, rest) := by
  cases h with
  | none =>
    cases rest with
    | nil => rfl
    | cons c rest => exact readFraction_of_ne (fun same => last rest (by rw [same])) atEnd rest
  | point digits => exact readDigits_spelled atEnd digits ends

theorem readSign_spelled {negative : Bool} {sign cs : List Char} (h : SpellsSign negative sign)
    (digits : Digits cs) (rest : List Char) :
    readSign (sign ++ (cs ++ rest)) = (negative, cs ++ rest) := by
  cases h with
  | minus => rfl
  | plus => rfl
  | none =>
    obtain ⟨some, all⟩ := digits
    cases cs with
    | nil => exact absurd rfl some
    | cons c cs =>
      have digit := all c List.mem_cons_self
      unfold readSign
      split
      · rename_i minus
        rw [(List.cons.inj minus).1] at digit
        cases digit
      · rename_i plus
        rw [(List.cons.inj plus).1] at digit
        cases digit
      · rfl

theorem readExponent_spelled (atEnd : Fault) {exponent : Option Exponent} {scale : List Char}
    (h : SpellsExponent exponent scale) (ends : EndsNumeral rest) :
    readExponent atEnd (scale ++ rest) = .ok (exponent, rest) := by
  cases h with
  | none => exact readExponent_ended atEnd ends
  | some letter signed digits =>
    rw [List.cons_append, List.append_assoc]
    unfold readExponent
    simp only [letter, if_true, readSign_spelled signed digits,
      readDigits_spelled atEnd digits fun c hc => (ends c hc).1, bind, Except.bind]

/-- What comes after the digits before the point. -/
theorem endsDigits_scale {exponent : Option Exponent} {scale : List Char}
    (h : SpellsExponent exponent scale) (ends : EndsNumeral rest) :
    EndsDigits (scale ++ rest) ∧ ∀ more, scale ++ rest ≠ '.' :: more := by
  cases h with
  | none =>
    refine ⟨fun c hc => (ends c hc).1, ?_⟩
    rintro more same
    rw [List.nil_append] at same
    exact (ends '.' (by rw [same]; rfl)).2.1 rfl
  | some letter signed digits =>
    constructor
    · intro c hc
      cases Option.some.inj hc
      rcases letter with rfl | rfl <;> decide
    · rintro more same
      have dot := (List.cons.inj same).1
      rcases letter with rfl | rfl <;> cases dot

theorem endsDigits_point {fraction point : List Char} (h : SpellsFraction fraction point)
    (ends : EndsDigits rest) : EndsDigits (point ++ rest) := by
  cases h with
  | none => exact ends
  | point digits =>
    intro c hc
    cases Option.some.inj hc
    decide

/-- **A numeral is read as it is spelled.** -/
theorem read_spelled (atEnd : Fault) {n : Numeral} (h : SpellsNumeral n text) (ends : EndsNumeral rest) :
    read atEnd (text ++ rest) = .ok (n, rest) := by
  cases h with
  | @mk negative whole fraction point scale exponent digits alone after power =>
    obtain ⟨other, last⟩ := endsDigits_scale power ends
    have unsigned : readAfterSign atEnd negative (whole ++ (point ++ (scale ++ rest))) =
        .ok (⟨negative, whole, fraction, exponent⟩, rest) := by
      unfold readAfterSign
      simp only [readWhole_spelled atEnd digits alone (endsDigits_point after other),
        readFraction_spelled atEnd after other last, readExponent_spelled atEnd power ends, bind,
        Except.bind]
    simp only [List.append_assoc]
    cases negative with
    | true => exact unsigned
    | false =>
      refine (read_plain atEnd ?_).trans unsigned
      intro more same
      obtain ⟨some, all⟩ := digits
      cases whole with
      | nil => exact some rfl
      | cons c whole =>
        have digit := all c List.mem_cons_self
        rw [(List.cons.inj same).1] at digit
        cases digit

end Numeral

/-- An integer of 64 bits is read as its value. -/
theorem number_integer {n : Numeral} {i : Int} (h : SpellsNumeral n text) (whole : n.integer? = some i)
    (ends : EndsNumeral rest) : number (text ++ rest) = .ok (.integer i, rest) := by
  unfold number
  rw [Numeral.read_spelled .unfinished h ends]
  simp only [bind, Except.bind, whole]

/-- Of any other number that is not too large the spelling is kept. -/
theorem number_real {n : Numeral} (h : SpellsNumeral n text) (broken : n.integer? = none)
    (within : n.overflows = false) (ends : EndsNumeral rest) :
    number (text ++ rest) = .ok (.real (String.ofList text), rest) := by
  have spelling : (text ++ rest).take ((text ++ rest).length - rest.length) = text := by
    rw [List.length_append, Nat.add_sub_cancel, List.take_left]
  unfold number
  rw [Numeral.read_spelled .unfinished h ends]
  simp only [bind, Except.bind, broken, within, spelling, Bool.false_eq_true, if_false]

/-! ## Strings -/

theorem hexUnit_spelled {n : Nat} {cs : List Char} (h : SpellsUnit n cs) (rest : List Char) :
    hexUnit (cs ++ rest) = .ok (n, rest) := by
  have front : (cs ++ rest).take 4 = cs := by rw [← h.four, List.take_left]
  have back : (cs ++ rest).drop 4 = rest := by rw [← h.four, List.drop_left]
  unfold hexUnit
  simp only [front, back, bytes_of_number? h.number, h.four, h.number, Nat.lt_irrefl, if_false]

/-- **A character is read however it is spelled**, as one step of the reader. -/
theorem stringFrom_char {c : Char} (h : SpellsChar c text) (fuel : Nat) (done rest : List Char) :
    stringFrom unicodeEscape (fuel + 1) done (text ++ rest) =
      stringFrom unicodeEscape fuel (c :: done) rest := by
  cases h with
  | plain quote backslash control =>
    rw [List.singleton_append]
    conv => lhs; unfold stringFrom
    simp only [quote, backslash, control, if_false]
  | @short e c known =>
    have letter : e ≠ 'u' := by
      rintro rfl
      cases known
    rw [List.cons_append, List.singleton_append]
    conv => lhs; unfold stringFrom
    simp only [Char.reduceEq, if_false, if_true, letter, known]
  | @unit n cs digits low high =>
    have escaped : unicodeEscape (cs ++ rest) = .ok (Char.ofNat n, rest) := by
      unfold unicodeEscape
      simp only [hexUnit_spelled digits, low, high, bind, Except.bind, Bool.false_eq_true, if_false]
    rw [List.cons_append, List.cons_append]
    conv => lhs; unfold stringFrom
    simp only [Char.reduceEq, if_false, if_true, escaped, bind, Except.bind]
  | @pair n m cs ds first high second low =>
    have single : isLowSurrogate n = false := by
      have range := of_decide_eq_true high
      exact decide_eq_false (by omega)
    have half : lowSurrogate ('\\' :: 'u' :: (ds ++ rest)) = .ok (m, rest) := by
      unfold lowSurrogate
      simp only [hexUnit_spelled second, low, bind, Except.bind, if_true]
    have escaped : unicodeEscape (cs ++ '\\' :: 'u' :: (ds ++ rest)) =
        .ok (Char.ofNat (0x10000 + (n - 0xD800) * 0x400 + (m - 0xDC00)), rest) := by
      unfold unicodeEscape
      simp only [hexUnit_spelled first, single, high, half, bind, Except.bind, Bool.false_eq_true,
        if_false, if_true]
    rw [List.cons_append, List.cons_append, List.append_assoc, List.cons_append, List.cons_append]
    conv => lhs; unfold stringFrom
    simp only [Char.reduceEq, if_false, if_true, escaped, bind, Except.bind]

theorem stringFrom_chars {cs : List Char} (h : SpellsChars cs text) {fuel : Nat} (room : text.length < fuel)
    (done rest : List Char) :
    stringFrom unicodeEscape fuel done (text ++ '"' :: rest) = .ok (done.reverse ++ cs, rest) := by
  induction h generalizing fuel done with
  | nil =>
    obtain ⟨fuel, rfl⟩ := Nat.exists_eq_succ_of_ne_zero (Nat.ne_of_gt room)
    simp [stringFrom]
  | @cons c cs text texts first others ih =>
    obtain ⟨fuel, rfl⟩ := Nat.exists_eq_succ_of_ne_zero (Nat.ne_of_gt (Nat.zero_lt_of_lt room))
    have some : 0 < text.length := by cases first <;> simp
    rw [List.length_append] at room
    rw [List.append_assoc, stringFrom_char first, ih (by omega), List.reverse_cons, List.append_assoc,
      List.singleton_append]

theorem string_spelled {s : String} (h : SpellsString s text) : ∃ body, text = '"' :: body ∧
    ∀ rest, string (body ++ rest) = .ok (s, rest) := by
  cases h with
  | @mk cs text chars =>
    refine ⟨_, rfl, fun rest => ?_⟩
    unfold string
    rw [List.append_assoc, List.singleton_append]
    have room : text.length < (text ++ '"' :: rest).length + 1 := by
      rw [List.length_append]
      exact Nat.lt_succ_of_le (Nat.le_add_right _ _)
    rw [stringFrom_chars chars room]
    rfl

end SymbolIndex.Json
