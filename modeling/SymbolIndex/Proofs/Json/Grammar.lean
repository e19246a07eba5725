import SymbolIndex.Proofs.Json.Trailing

/-!
# `Proofs.Json.Grammar` — which texts spell which values

The grammar of JSON, read as a relation between values and texts. It says what the reader should take,
without saying how: white space may stand around every value and every key, a character of a string may be
written as itself or by an escape, an exponent with either letter and with or without a plus. A value is
spelled at a depth, which is how many arrays and objects may be opened one inside the other.

Numbers that are no integers of 64 bits are kept as they are spelled. Which of them are let in is left open
(`range`), since that is a matter of the reader and not of the grammar.

## Contents
- `SpellsNumeral`, and what it is made of.
- `SpellsChar`, `SpellsString`.
- `MemberSpelling`, `Spells`: values.
-/

namespace SymbolIndex.Json

open Text

/-! ## Numbers -/

/-- One or more digits. -/
def Digits (cs : List Char) : Prop :=
  cs ≠ [] ∧ ∀ c ∈ cs, Decimal.isDigit c = true

/-- A minus, or nothing. -/
def minusSign (negative : Bool) : List Char :=
  if negative then ['-'] else []

/-- The digits after the point. There is a point only if there are digits. -/
inductive SpellsFraction : List Char → List Char → Prop
  | none : SpellsFraction [] []
  | point {cs : List Char} (digits : Digits cs) : SpellsFraction cs ('.' :: cs)

/-- The sign of an exponent: a plus may be left out. -/
inductive SpellsSign : Bool → List Char → Prop
  | minus : SpellsSign true ['-']
  | plus : SpellsSign false ['+']
  | none : SpellsSign false []

inductive SpellsExponent : Option Exponent → List Char → Prop
  | none : SpellsExponent none []
  | some {mark : Char} {negative : Bool} {sign cs : List Char} (letter : mark = 'e' ∨ mark = 'E')
    (signed : SpellsSign negative sign) (digits : Digits cs) :
    SpellsExponent (some ⟨negative, cs⟩) (mark :: (sign ++ cs))

/-- A numeral: a sign, digits before the point, where a zero stands alone, and perhaps a fraction and an
exponent. -/
inductive SpellsNumeral : Numeral → List Char → Prop
  | mk {negative : Bool} {whole fraction point scale : List Char} {exponent : Option Exponent}
    (digits : Digits whole) (alone : whole.head? = some '0' → whole = ['0'])
    (after : SpellsFraction fraction point) (power : SpellsExponent exponent scale) :
    SpellsNumeral ⟨negative, whole, fraction, exponent⟩
      (minusSign negative ++ (whole ++ (point ++ scale)))

/-! ## Strings -/

/-- The four hexadecimal digits of a `\u` escape. -/
structure SpellsUnit (n : Nat) (cs : List Char) : Prop where
  four : cs.length = 4
  number : Hex.number? cs = some n

/-- A character of a string. A quote, a backslash and a control character are written by an escape, any
other may be; one beyond U+FFFF takes the escapes of two surrogates. -/
inductive SpellsChar : Char → List Char → Prop
  | plain {c : Char} (quote : c ≠ '"') (backslash : c ≠ '\\') (control : ¬ c.toNat < 0x20) :
    SpellsChar c [c]
  | short {e c : Char} (known : shortEscape? e = some c) : SpellsChar c ['\\', e]
  | unit {n : Nat} {cs : List Char} (digits : SpellsUnit n cs) (low : isLowSurrogate n = false)
    (high : isHighSurrogate n = false) : SpellsChar (Char.ofNat n) ('\\' :: 'u' :: cs)
  | pair {n m : Nat} {cs ds : List Char} (first : SpellsUnit n cs) (high : isHighSurrogate n = true)
    (second : SpellsUnit m ds) (low : isLowSurrogate m = true) :
    SpellsChar (Char.ofNat (0x10000 + (n - 0xD800) * 0x400 + (m - 0xDC00)))
      ('\\' :: 'u' :: (cs ++ '\\' :: 'u' :: ds))

inductive SpellsChars : List Char → List Char → Prop
  | nil : SpellsChars [] []
  | cons {c : Char} {cs text texts : List Char} (first : SpellsChar c text)
    (others : SpellsChars cs texts) : SpellsChars (c :: cs) (text ++ texts)

/-- A string between its quotes. -/
inductive SpellsString : String → List Char → Prop
  | mk {cs text : List Char} (chars : SpellsChars cs text) :
    SpellsString (String.ofList cs) ('"' :: (text ++ ['"']))

/-! ## Values -/

/-- A member of an object with what it is written as: white space, the key, white space, a colon and the
value. -/
structure MemberSpelling where
  key : String
  value : Value
  before : List Char
  name : List Char
  between : List Char
  text : List Char

namespace MemberSpelling

def toMember (m : MemberSpelling) : String × Value :=
  (m.key, m.value)

def toText (m : MemberSpelling) : List Char :=
  m.before ++ (m.name ++ (m.between ++ ':' :: m.text))

/-- The key is spelled by its text, and what stands around it is white space. -/
structure Named (m : MemberSpelling) : Prop where
  before : Spaces m.before
  name : SpellsString m.key m.name
  between : Spaces m.between

end MemberSpelling

/-- A text that spells a value in which at most `depth` arrays and objects are nested, and in which the
numbers that are no integers are in `range`. -/
inductive Spells (range : Numeral → Prop) : (depth : Nat) → Value → List Char → Prop
  | null {depth : Nat} : Spells range depth .null ['n', 'u', 'l', 'l']
  | yes {depth : Nat} : Spells range depth (.bool true) ['t', 'r', 'u', 'e']
  | no {depth : Nat} : Spells range depth (.bool false) ['f', 'a', 'l', 's', 'e']
  | integer {depth : Nat} {n : Numeral} {i : Int} {text : List Char} (numeral : SpellsNumeral n text)
    (whole : n.integer? = some i) : Spells range depth (.integer i) text
  | real {depth : Nat} {n : Numeral} {text : List Char} (numeral : SpellsNumeral n text)
    (broken : n.integer? = none) (within : range n) : Spells range depth (.real (String.ofList text)) text
  | string {depth : Nat} {s : String} {text : List Char} (quoted : SpellsString s text) :
    Spells range depth (.string s) text
  | emptyArray {depth : Nat} {blank : List Char} (spaces : Spaces blank) :
    Spells range (depth + 1) (.array []) ('[' :: (blank ++ [']']))
  | array {depth : Nat} {parts : List (Value × List Char)}
    (elements : ∀ p ∈ parts, Spells range depth p.1 p.2) :
    Spells range (depth + 1) (.array (parts.map Prod.fst))
      ('[' :: (Value.separated (parts.map Prod.snd) ++ [']']))
  | emptyObject {depth : Nat} {blank : List Char} (spaces : Spaces blank) :
    Spells range (depth + 1) (.object []) ('\x7b' :: (blank ++ ['\x7d']))
  | object {depth : Nat} {parts : List MemberSpelling} (named : ∀ m ∈ parts, m.Named)
    (members : ∀ m ∈ parts, Spells range depth m.value m.text) :
    Spells range (depth + 1) (.object (parts.map MemberSpelling.toMember))
      ('\x7b' :: (Value.separated (parts.map MemberSpelling.toText) ++ ['\x7d']))
  | spaced {depth : Nat} {v : Value} {before text after : List Char} (spaces : Spaces before)
    (spelled : Spells range depth v text) (more : Spaces after) :
    Spells range depth v (before ++ (text ++ after))

end SymbolIndex.Json
