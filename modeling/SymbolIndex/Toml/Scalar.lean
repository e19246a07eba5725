import SymbolIndex.Text.Decimal
import SymbolIndex.Text.Hex

/-!
# `SymbolIndex.Toml.Scalar` — strings, numbers and dates of TOML 1.0

A reader takes something off the front of a text and gives the rest, or refuses the text. Of numbers
and dates only the grammar and the range matter here; of strings the value is kept.

## Contents
- `Reader`, white space, newlines and comments.
- Strings: basic and literal, on one line or several.
- `readInteger`, `readFloat`, `readDateTime`.
-/

namespace SymbolIndex.Toml

open Text

/-- Takes a result off the front of a text and gives the rest. -/
abbrev Reader (α : Type) := List Char → Option (α × List Char)

/-! ## White space -/

def isSpace (c : Char) : Bool :=
  c = ' ' || c = '\t'

def skipSpace (text : List Char) : List Char :=
  text.dropWhile isSpace

/-- Characters of a comment or a literal string: tab, printable ASCII, everything beyond ASCII. -/
def isPrintable (c : Char) : Bool :=
  c = '\t' || decide (0x20 ≤ c.toNat ∧ c.toNat ≠ 0x7F)

/-- The text after a newline, if it starts with one. -/
def newline? : List Char → Option (List Char)
  | '\n' :: rest => some rest
  | '\r' :: '\n' :: rest => some rest
  | _ => none

/-- Takes a comment off the front of a text. -/
def skipComment : List Char → List Char
  | '#' :: rest => rest.dropWhile isPrintable
  | text => text

/-- The text after the rest of a line: white space, a comment, and a newline or the end. -/
def lineEnd? (text : List Char) : Option (List Char) :=
  match skipComment (skipSpace text) with
  | [] => some []
  | text => newline? text

/-- Takes white space, newlines and whole-line comments off the front of a text. -/
def skipGap : (fuel : Nat) → List Char → List Char
  | 0, text => text
  | fuel + 1, text =>
    match skipSpace text with
    | '#' :: rest =>
      match newline? (skipComment ('#' :: rest)) with
      | some rest => skipGap fuel rest
      | none => '#' :: rest
    | text =>
      match newline? text with
      | some rest => skipGap fuel rest
      | none => text

/-- Takes white space and newlines off the front of a text. -/
def skipLines : List Char → List Char
  | '\n' :: rest => skipLines rest
  | '\r' :: '\n' :: rest => skipLines rest
  | c :: rest => if isSpace c then skipLines rest else c :: rest
  | [] => []

/-! ## Strings -/

/-- The character of `count` hexadecimal digits. -/
def readUnicode (count : Nat) (text : List Char) : Option (Char × List Char) :=
  if text.length < count then none
  else do
    let n ← Hex.number? (text.take count)
    if n < 0xD800 ∨ (0xDFFF < n ∧ n < 0x110000) then some (Char.ofNat n, text.drop count) else none

/-- An escape after its backslash. -/
def readEscape : Reader Char
  | 'b' :: rest => some ('\x08', rest)
  | 't' :: rest => some ('\t', rest)
  | 'n' :: rest => some ('\n', rest)
  | 'f' :: rest => some ('\x0c', rest)
  | 'r' :: rest => some ('\r', rest)
  | '"' :: rest => some ('"', rest)
  | '\\' :: rest => some ('\\', rest)
  | 'u' :: rest => readUnicode 4 rest
  | 'U' :: rest => readUnicode 8 rest
  | _ => none

/-- The rest of a basic string on one line. -/
def basicFrom : (fuel : Nat) → List Char → Reader (List Char)
  | 0, _, _ => none
  | _ + 1, _, [] => none
  | fuel + 1, done, c :: rest =>
    if c = '"' then some (done.reverse, rest)
    else if c = '\\' then do
      let (c, rest) ← readEscape rest
      basicFrom fuel (c :: done) rest
    else if isPrintable c then basicFrom fuel (c :: done) rest
    else none

/-- The rest of a literal string on one line. -/
def literalFrom (text : List Char) : Option (List Char × List Char) :=
  match text.span fun c => isPrintable c && c != '\'' with
  | (cs, '\'' :: rest) => some (cs, rest)
  | _ => none

/-- The quotes of a run that belong to a text of several lines, and whether the run ends it. Up to
two quotes are text; three end it, with up to two more before them. -/
def closing (run : Nat) : Nat × Bool :=
  if run < 3 then (run, false) else (min (run - 3) 2, true)

/-- The rest of a basic string on several lines. -/
def basicLinesFrom : (fuel : Nat) → List Char → Reader (List Char)
  | 0, _, _ => none
  | _ + 1, _, [] => none
  | fuel + 1, done, c :: rest =>
    if c = '"' then
      let run := ((c :: rest).takeWhile (· = '"')).length
      let (kept, ends) := closing run
      let done := List.replicate kept '"' ++ done
      if ends then some (done.reverse, (c :: rest).drop (kept + 3))
      else basicLinesFrom fuel done ((c :: rest).drop run)
    else if c = '\\' then
      match newline? (skipSpace rest) with
      | some rest => basicLinesFrom fuel done (skipLines rest)
      | none => do
        let (c, rest) ← readEscape rest
        basicLinesFrom fuel (c :: done) rest
    else
      match newline? (c :: rest) with
      | some rest => basicLinesFrom fuel ('\n' :: done) rest
      | none => if isPrintable c then basicLinesFrom fuel (c :: done) rest else none

/-- The rest of a literal string on several lines. -/
def literalLinesFrom : (fuel : Nat) → List Char → Reader (List Char)
  | 0, _, _ => none
  | _ + 1, _, [] => none
  | fuel + 1, done, c :: rest =>
    if c = '\'' then
      let run := ((c :: rest).takeWhile (· = '\'')).length
      let (kept, ends) := closing run
      let done := List.replicate kept '\'' ++ done
      if ends then some (done.reverse, (c :: rest).drop (kept + 3))
      else literalLinesFrom fuel done ((c :: rest).drop run)
    else
      match newline? (c :: rest) with
      | some rest => literalLinesFrom fuel ('\n' :: done) rest
      | none => if isPrintable c then literalLinesFrom fuel (c :: done) rest else none

/-- A newline right after the opening quotes is no part of the text. -/
def afterOpening (text : List Char) : List Char :=
  (newline? text).getD text

/-- A string on one line, as a key may be. -/
def readLineString : Reader String
  | '"' :: rest => (basicFrom (rest.length + 1) [] rest).map fun (cs, rest) => (String.ofList cs, rest)
  | '\'' :: rest => (literalFrom rest).map fun (cs, rest) => (String.ofList cs, rest)
  | _ => none

/-- A string of any kind. -/
def readString : Reader String
  | '"' :: '"' :: '"' :: rest =>
    let text := afterOpening rest
    (basicLinesFrom (text.length + 1) [] text).map fun (cs, rest) => (String.ofList cs, rest)
  | '\'' :: '\'' :: '\'' :: rest =>
    let text := afterOpening rest
    (literalLinesFrom (text.length + 1) [] text).map fun (cs, rest) => (String.ofList cs, rest)
  | text => readLineString text

/-! ## Numbers -/

/-- Digits with single underscores between them. -/
def groupedFrom (test : Char → Bool) : List Char → Reader (List Char)
  | done, '_' :: c :: rest => if test c then groupedFrom test (c :: done) rest else none
  | done, c :: rest =>
    if test c then groupedFrom test (c :: done) rest
    else if c = '_' then none
    else some (done.reverse, c :: rest)
  | done, [] => some (done.reverse, [])

/-- One or more digits with single underscores between them. -/
def grouped (test : Char → Bool) : Reader (List Char)
  | c :: rest => if test c then groupedFrom test [c] rest else none
  | [] => none

/-- A sign that may be left out; the flag says whether it is a minus. -/
def readSign : List Char → Bool × List Char
  | '-' :: rest => (true, rest)
  | '+' :: rest => (false, rest)
  | text => (false, text)

/-- Decimal digits without a leading zero, or a zero. -/
def readWhole : Reader (List Char)
  | '0' :: rest => some (['0'], rest)
  | text => grouped Decimal.isDigit text

/-- Digits of another base after its two-character mark; the number has to fit into 63 bits. -/
def readBased (base : Nat) (text : List Char) : Option (Unit × List Char) := do
  let digit (c : Char) : Bool := (Hex.value? c).any (· < base)
  let (ds, rest) ← grouped digit text
  let n := ds.foldl (fun n c => base * n + (Hex.value? c).getD 0) 0
  if n < 0x8000000000000000 then some ((), rest) else none

/-- An integer of 64 bits. -/
def readInteger : Reader Unit
  | '0' :: 'x' :: rest => readBased 16 rest
  | '0' :: 'o' :: rest => readBased 8 rest
  | '0' :: 'b' :: rest => readBased 2 rest
  | text => do
    let (negative, text) := readSign text
    let (ds, rest) ← readWhole text
    let n := Decimal.value ds
    if n < 0x8000000000000000 ∨ (negative ∧ n = 0x8000000000000000) then some ((), rest) else none

/-- Whether `digits · 10 ^ exponent` rounds to something beyond the largest double. -/
def overflows (digits : List Char) (exponent : Int) : Bool :=
  let n := Decimal.value digits
  let size : Int := (digits.length : Int) + exponent
  if n = 0 ∨ size < 300 then false
  else
    let significant := (digits.dropWhile (· = '0')).length
    if 400 < (significant : Int) + exponent then true
    else
      let limit := Nat.pow 2 1024 - Nat.pow 2 970
      if exponent < 0 then decide (limit * Nat.pow 10 exponent.natAbs ≤ n)
      else decide (limit ≤ n * Nat.pow 10 exponent.toNat)

/-- An exponent after its mark. -/
def readExponent (text : List Char) : Option (Int × List Char) := do
  let (negative, text) := readSign text
  let (ds, rest) ← grouped Decimal.isDigit text
  let n : Int := Decimal.value ds
  some (if negative then -n else n, rest)

/-- A number with a fraction or an exponent; one without a minus has to be within the range of a
double. -/
def readDecimalFloat (text : List Char) : Option (Unit × List Char) := do
  let (negative, text) := readSign text
  let (whole, text) ← readWhole text
  let finish (fraction : List Char) (exponent : Int) (rest : List Char) : Option (Unit × List Char) :=
    if !negative && overflows (whole ++ fraction) (exponent - fraction.length) then none
    else some ((), rest)
  let withExponent (fraction : List Char) (text : List Char) : Option (Unit × List Char) :=
    match text with
    | 'e' :: rest | 'E' :: rest => do
      let (exponent, rest) ← readExponent rest
      finish fraction exponent rest
    | _ => if fraction = [] then none else finish fraction 0 text
  match text with
  | '.' :: rest => do
    let (fraction, rest) ← grouped Decimal.isDigit rest
    withExponent fraction rest
  | _ => withExponent [] text

/-- Infinity, or not a number, with a sign or without. -/
def readSpecialFloat (text : List Char) : Option (Unit × List Char) :=
  match (readSign text).2 with
  | 'i' :: 'n' :: 'f' :: rest => some ((), rest)
  | 'n' :: 'a' :: 'n' :: rest => some ((), rest)
  | _ => none

def readFloat (text : List Char) : Option (Unit × List Char) :=
  (readDecimalFloat text).or (readSpecialFloat text)

/-! ## Dates and times -/

/-- A number of exactly `count` digits within a range. -/
def readField (count low high : Nat) (text : List Char) : Option (Nat × List Char) :=
  let ds := text.take count
  if ds.length = count ∧ ds.all Decimal.isDigit then
    let n := Decimal.value ds
    if low ≤ n ∧ n ≤ high then some (n, text.drop count) else none
  else none

/-- A given character. -/
def readChar (c : Char) : List Char → Option (List Char)
  | d :: rest => if d = c then some rest else none
  | [] => none

def isLeap (year : Nat) : Bool :=
  year % 4 = 0 && (year % 100 != 0 || year % 400 = 0)

def daysIn (year month : Nat) : Nat :=
  if month = 2 then (if isLeap year then 29 else 28)
  else if month = 4 ∨ month = 6 ∨ month = 9 ∨ month = 11 then 30 else 31

def readDate (text : List Char) : Option (Unit × List Char) := do
  let (year, text) ← readField 4 0 9999 text
  let text ← readChar '-' text
  let (month, text) ← readField 2 1 12 text
  let text ← readChar '-' text
  let (_, text) ← readField 2 1 (daysIn year month) text
  some ((), text)

/-- Hours, minutes and seconds, and a fraction of any length. -/
def readTime (text : List Char) : Option (Unit × List Char) := do
  let (_, text) ← readField 2 0 23 text
  let text ← readChar ':' text
  let (_, text) ← readField 2 0 59 text
  let text ← readChar ':' text
  let (_, text) ← readField 2 0 60 text
  match text with
  | '.' :: c :: rest =>
    if Decimal.isDigit c then some ((), rest.dropWhile Decimal.isDigit) else some ((), text)
  | _ => some ((), text)

def readOffset : List Char → Option (Unit × List Char)
  | 'Z' :: rest | 'z' :: rest => some ((), rest)
  | c :: rest =>
    if c = '+' ∨ c = '-' then do
      let (_, text) ← readField 2 0 23 rest
      let text ← readChar ':' text
      let (_, text) ← readField 2 0 59 text
      some ((), text)
    else none
  | [] => none

/-- A date with or without a time, or a time alone; only a time after a date has an offset. -/
def readDateTime (text : List Char) : Option (Unit × List Char) :=
  match readDate text with
  | none => readTime text
  | some ((), rest) =>
    match rest with
    | c :: after =>
      if c = 'T' ∨ c = 't' ∨ c = ' ' then
        match readTime after with
        | some ((), rest) => some ((readOffset rest).getD ((), rest))
        | none => some ((), rest)
      else some ((), rest)
    | [] => some ((), [])

end SymbolIndex.Toml
