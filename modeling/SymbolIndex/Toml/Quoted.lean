import SymbolIndex.Text.Hex

/-!
# `SymbolIndex.Toml.Quoted` — how a text is written as a TOML string

A text is written in the plainest of the four forms that needs no escapes, and with escapes only if
none does. A form of several lines starts with a newline if the text holds one.

## Contents
- `longestRun`, `needsEscape`: what decides between the forms.
- `Form`, `Form.suits`, `formOf`: the choice.
- `escape`, `quote`: the written text.
-/

namespace SymbolIndex.Toml

/-! ## The choice of a form -/

/-- The length of the longest run of a character. -/
def longestRun (c : Char) (text : List Char) : Nat :=
  (text.foldl (fun (best, run) d =>
    let run := if d = c then run + 1 else 0
    (max best run, run)) (0, 0)).1

/-- Whether a character cannot stand in a string as it is. Tabs and newlines can. -/
def needsEscape (c : Char) : Bool :=
  decide (c.toNat ≤ 0x1F ∨ c.toNat = 0x7F) && c != '\t' && c != '\n'

/-- The four forms of a string. -/
inductive Form where
  | basic
  | literal
  | basicLines
  | literalLines
  deriving DecidableEq, Repr, Inhabited

namespace Form

def delimiter : Form → String
  | basic => "\""
  | literal => "'"
  | basicLines => "\"\"\""
  | literalLines => "'''"

/-- Whether a string of this form may go over several lines. -/
def hasLines : Form → Bool
  | basic | literal => false
  | basicLines | literalLines => true

/-- How many quotes in a row may stand in a string of this form. -/
def maxRun (f : Form) : Nat :=
  if f.hasLines then 2 else 0

/-- Whether a backslash in a string of this form starts an escape. -/
def hasEscapes : Form → Bool
  | basic | basicLines => true
  | literal | literalLines => false

/-- The quote that ends a string of this form. -/
def mark (f : Form) : Char :=
  if f.hasEscapes then '"' else '\''

/-- Whether a text can be written in this form without an escape. -/
def suits (f : Form) (text : List Char) : Bool :=
  !text.any needsEscape
    && !(f.hasEscapes && text.contains '\\')
    && decide (longestRun f.mark text ≤ f.maxRun)
    && (f.hasLines || !text.contains '\n')

end Form

/-- The form in which a text is written. -/
def formOf (text : List Char) : Form :=
  let forms := [Form.basic, .literal, .basicLines, .literalLines]
  (forms.find? fun f => f.suits text).getD (if text.contains '\n' then .basicLines else .basic)

/-! ## The written text -/

/-- The escape of a character in a string of the given form, if it needs one. -/
def escapeChar (f : Form) (c : Char) : Option (List Char) :=
  if c = '\x08' then some ['\\', 'b']
  else if c = '\t' then some ['\\', 't']
  else if c = '\n' then (if f.hasLines then none else some ['\\', 'n'])
  else if c = '\x0c' then some ['\\', 'f']
  else if c = '\r' then some ['\\', 'r']
  else if c = '\\' then some ['\\', '\\']
  else if needsEscape c then some ('\\' :: 'u' :: (Text.Hex.digits 4 c.toNat).map Char.toUpper)
  else none

/-- A text with its escapes. A quote is escaped when `run` quotes before it already fill what the
form allows in a row. -/
def escape (f : Form) : (run : Nat) → List Char → List Char
  | _, [] => []
  | run, c :: rest =>
    if c = '"' then
      if run < f.maxRun then c :: escape f (run + 1) rest
      else '\\' :: c :: escape f 0 rest
    else (escapeChar f c).getD [c] ++ escape f 0 rest

/-- A text as a TOML string. -/
def quote (text : String) : String :=
  let cs := text.toList
  let f := formOf cs
  let opening := if f.hasLines && cs.contains '\n' then "\n" else ""
  let body := if f.hasEscapes then escape f 0 cs else cs
  f.delimiter ++ opening ++ String.ofList body ++ f.delimiter

end SymbolIndex.Toml
