import SymbolIndex.Json.Numeral
import SymbolIndex.Json.Value

/-!
# `SymbolIndex.Json.Reader` — reading JSON from left to right

A reader takes a value off the front of a text or stops at the first fault. Arrays and objects are
read by two loops, `elements` and `members`, which hand each element or member to a step; the step
decides what is read, so that the same loops serve plain values, records and events.

## Contents
- `Reader`, white space, keywords.
- `Lexicon`: how strings and numbers are read — `strict` when the value is kept, `loose` when it is
  passed over and only its grammar matters.
- `elements`, `members`.
- `value`: a value with at most `depth` nested arrays and objects; `whole`: a text that is one value.
-/

namespace SymbolIndex.Json

/-- Takes a result off the front of a text and gives the rest. -/
abbrev Reader (α : Type) := List Char → Except Fault (α × List Char)

/-- How many nested arrays and objects a text may open. -/
def maxDepth : Nat := 127

def isSpace (c : Char) : Bool :=
  c = ' ' || c = '\n' || c = '\t' || c = '\r'

def skipSpace (text : List Char) : List Char :=
  text.dropWhile isSpace

/-- The rest of a keyword, letter by letter. -/
def keyword : (letters : List Char) → List Char → Except Fault (List Char)
  | [], rest => .ok rest
  | _ :: _, [] => .error .unfinished
  | k :: ks, c :: cs => if c = k then keyword ks cs else .error .malformed

/-! ## Strings -/

/-- The character that a one-letter escape stands for. -/
def shortEscape? : Char → Option Char
  | '"' => some '"'
  | '\\' => some '\\'
  | '/' => some '/'
  | 'b' => some '\x08'
  | 'f' => some '\x0c'
  | 'n' => some '\n'
  | 'r' => some '\r'
  | 't' => some '\t'
  | _ => none

/-- The four digits of a `\u` escape. A text with fewer than four bytes left has ended inside it. -/
def hexUnit (text : List Char) : Except Fault (Nat × List Char) :=
  let bytes := (text.take 4).foldl (fun n c => n + c.utf8Size) 0
  if bytes < 4 then .error .unfinished
  else match Text.Hex.number? (text.take 4) with
    | some n => .ok (n, text.drop 4)
    | none => .error .malformed

def isHighSurrogate (n : Nat) : Bool := decide (0xD800 ≤ n ∧ n ≤ 0xDBFF)

def isLowSurrogate (n : Nat) : Bool := decide (0xDC00 ≤ n ∧ n ≤ 0xDFFF)

/-- The second half of a surrogate pair, with the escape that has to introduce it. -/
def lowSurrogate : List Char → Except Fault (Nat × List Char)
  | [] => .error .unfinished
  | ['\\'] => .error .unfinished
  | '\\' :: 'u' :: rest => do
    let (n, rest) ← hexUnit rest
    if isLowSurrogate n then .ok (n, rest) else .error .malformed
  | _ => .error .malformed

/-- A character written as one `\u` escape or as a surrogate pair of two. -/
def unicodeEscape (text : List Char) : Except Fault (Char × List Char) := do
  let (n, rest) ← hexUnit text
  if isLowSurrogate n then .error .malformed
  else if isHighSurrogate n then do
    let (m, rest) ← lowSurrogate rest
    .ok (Char.ofNat (0x10000 + (n - 0xD800) * 0x400 + (m - 0xDC00)), rest)
  else .ok (Char.ofNat n, rest)

/-- The rest of a string after its opening quote, up to and including the closing one. `fuel` bounds
the number of characters and escapes. -/
def stringFrom (escaped : Reader Char) : (fuel : Nat) → List Char → Reader (List Char)
  | 0, _, _ => .error .unfinished
  | _ + 1, _, [] => .error .unfinished
  | fuel + 1, done, c :: rest =>
    if c = '"' then .ok (done.reverse, rest)
    else if c = '\\' then
      match rest with
      | [] => .error .unfinished
      | e :: rest' =>
        if e = 'u' then do
          let (c, rest'') ← escaped rest'
          stringFrom escaped fuel (c :: done) rest''
        else match shortEscape? e with
          | some c => stringFrom escaped fuel (c :: done) rest'
          | none => .error .malformed
    else if c.toNat < 0x20 then .error .malformed
    else stringFrom escaped fuel (c :: done) rest

/-- A string after its opening quote. -/
def string : Reader String := fun text => do
  let (cs, rest) ← stringFrom unicodeEscape (text.length + 1) [] text
  .ok (String.ofList cs, rest)

/-- A string that is passed over: any four digits make a `\u` escape. -/
def skippedString : Reader String := fun text => do
  let (_, rest) ← stringFrom (fun t => (hexUnit t).map fun (_, r) => ('u', r)) (text.length + 1) [] text
  .ok ("", rest)

/-! ## Numbers -/

/-- A number with its value. -/
def number : Reader Value := fun text => do
  let (n, rest) ← Numeral.read .unfinished text
  match n.integer? with
  | some i => .ok (.integer i, rest)
  | none =>
    if n.overflows then .error .malformed
    else .ok (.real (String.ofList (text.take (text.length - rest.length))), rest)

/-- A number that is passed over: it may be of any size, and a text that ends inside it is
malformed. -/
def skippedNumber : Reader Value := fun text => do
  let (_, rest) ← Numeral.read .malformed text
  .ok (.null, rest)

/-- How strings and numbers are read. -/
structure Lexicon where
  string : Reader String
  number : Reader Value

def strict : Lexicon := ⟨string, number⟩

def loose : Lexicon := ⟨skippedString, skippedNumber⟩

/-! ## Arrays and objects -/

/-- The rest of an array after its bracket. Each element is handed to `step` together with what the
elements before it made. -/
def elementsFrom {σ : Type} (step : σ → Reader σ) : (fuel : Nat) → (first : Bool) → σ → Reader σ
  | 0, _, _, _ => .error .unfinished
  | fuel + 1, first, state, text =>
    match skipSpace text with
    | [] => .error .unfinished
    | c :: rest =>
      if c = ']' then .ok (state, rest)
      else if first then do
        let (state, rest) ← step state (c :: rest)
        elementsFrom step fuel false state rest
      else if c = ',' then do
        let (state, rest) ← step state rest
        elementsFrom step fuel false state rest
      else .error .malformed

def elements {σ : Type} (step : σ → Reader σ) (state : σ) : Reader σ := fun text =>
  elementsFrom step (text.length + 1) true state text

/-- The opening quote of a key, then the key. -/
def key (lex : Lexicon) : Reader String := fun text =>
  match skipSpace text with
  | [] => .error .unfinished
  | c :: rest => if c = '"' then lex.string rest else .error .malformed

/-- The colon between a key and its value. -/
def colon (text : List Char) : Except Fault (List Char) :=
  match skipSpace text with
  | [] => .error .unfinished
  | c :: rest => if c = ':' then .ok rest else .error .malformed

/-- The rest of an object after its brace. Each key is handed to `step`, which reads the colon and
the value. -/
def membersFrom {σ : Type} (lex : Lexicon) (step : σ → String → Reader σ) :
    (fuel : Nat) → (first : Bool) → σ → Reader σ
  | 0, _, _, _ => .error .unfinished
  | fuel + 1, first, state, text =>
    match skipSpace text with
    | [] => .error .unfinished
    | c :: rest =>
      if c = '\x7d' then .ok (state, rest)
      else if first then do
        let (name, rest) ← key lex (c :: rest)
        let (state, rest) ← step state name rest
        membersFrom lex step fuel false state rest
      else if c = ',' then do
        let (name, rest) ← key lex rest
        let (state, rest) ← step state name rest
        membersFrom lex step fuel false state rest
      else .error .malformed

def members {σ : Type} (lex : Lexicon) (step : σ → String → Reader σ) (state : σ) : Reader σ :=
  fun text => membersFrom lex step (text.length + 1) true state text

/-! ## Values -/

/-- A value whose elements and members are read by `nested`; without it no array and no object may
be opened. -/
def valueOver (lex : Lexicon) (nested : Option (Reader Value)) : Reader Value := fun text =>
  match skipSpace text with
  | [] => .error .unfinished
  | c :: rest =>
    if c = 'n' then do
      let rest ← keyword ['u', 'l', 'l'] rest
      .ok (.null, rest)
    else if c = 't' then do
      let rest ← keyword ['r', 'u', 'e'] rest
      .ok (.bool true, rest)
    else if c = 'f' then do
      let rest ← keyword ['a', 'l', 's', 'e'] rest
      .ok (.bool false, rest)
    else if c = '"' then do
      let (s, rest) ← lex.string rest
      .ok (.string s, rest)
    else if c = '-' ∨ Text.Decimal.isDigit c then lex.number (c :: rest)
    else if c = '[' then
      match nested with
      | none => .error .malformed
      | some nested => do
        let (vs, rest) ← elements (fun (vs : List Value) t => do
          let (v, t) ← nested t
          .ok (vs ++ [v], t)) [] rest
        .ok (.array vs, rest)
    else if c = '\x7b' then
      match nested with
      | none => .error .malformed
      | some nested => do
        let (ms, rest) ← members lex (fun (ms : List (String × Value)) name t => do
          let t ← colon t
          let (v, t) ← nested t
          .ok (ms ++ [(name, v)], t)) [] rest
        .ok (.object ms, rest)
    else .error .malformed

/-- A value with at most `depth` nested arrays and objects. -/
def value (lex : Lexicon) : (depth : Nat) → Reader Value
  | 0, text => valueOver lex none text
  | depth + 1, text => valueOver lex (some (value lex depth)) text

/-- Passes over a value of any depth: each level opens with a character of its own. -/
def skipValue : Reader Unit := fun text => do
  let (_, rest) ← value loose text.length text
  .ok ((), rest)

/-- A text that is one value and white space around it. -/
def whole {α : Type} (reader : Reader α) (text : List Char) : Except Fault α := do
  let (a, rest) ← reader text
  if skipSpace rest = [] then .ok a else .error .malformed

end SymbolIndex.Json
