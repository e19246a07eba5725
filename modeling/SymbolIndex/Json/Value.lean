import SymbolIndex.Text.Decimal
import SymbolIndex.Text.Hex

/-!
# `SymbolIndex.Json.Value` — JSON values and their compact text

A number is an integer of at most 64 bits, or something else of which only the spelling is kept.
`Value.render` writes without spaces, members in order, and escapes in a string only the quote, the
backslash and the control characters below U+0020.
-/

namespace SymbolIndex.Json

inductive Value where
  | null
  | bool (b : Bool)
  | integer (n : Int)
  /-- A number with a fraction, an exponent or too many digits, as it was written. -/
  | real (spelling : String)
  | string (s : String)
  | array (elements : List Value)
  | object (members : List (String × Value))
  deriving Inhabited

/-- How one character is written inside a string. -/
def escape (c : Char) : List Char :=
  if c = '"' then ['\\', '"']
  else if c = '\\' then ['\\', '\\']
  else if c = '\x08' then ['\\', 'b']
  else if c = '\t' then ['\\', 't']
  else if c = '\n' then ['\\', 'n']
  else if c = '\x0c' then ['\\', 'f']
  else if c = '\r' then ['\\', 'r']
  else if c.toNat < 0x20 then ['\\', 'u'] ++ Text.Hex.digits 4 c.toNat
  else [c]

/-- A string between quotes. -/
def quote (s : String) : List Char :=
  '"' :: s.toList.flatMap escape ++ ['"']

namespace Value

/-- Parts with commas between them. -/
def separated (parts : List (List Char)) : List Char :=
  [','].intercalate parts

mutual

/-- The compact text of a value. -/
def render : Value → List Char
  | null => "null".toList
  | bool true => "true".toList
  | bool false => "false".toList
  | integer n => Text.Decimal.ofInt n
  | real spelling => spelling.toList
  | string s => quote s
  | array vs => '[' :: separated (renderAll vs) ++ [']']
  | object ms => '\x7b' :: separated (renderMembers ms) ++ ['\x7d']

def renderAll : List Value → List (List Char)
  | [] => []
  | v :: vs => render v :: renderAll vs

def renderMembers : List (String × Value) → List (List Char)
  | [] => []
  | (k, v) :: ms => (quote k ++ ':' :: render v) :: renderMembers ms

end

def toText (v : Value) : String :=
  String.ofList v.render

end Value

end SymbolIndex.Json
