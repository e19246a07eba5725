import SymbolIndex.Text.Hex

/-!
# `SymbolIndex.Text.Visible` — texts that steer no terminal

A terminal obeys escape, bell, backspace, form feed, delete and the controls from U+0080 to U+009F.
`visible` writes their code points instead, and leaves line breaks and all else as they are.
-/

namespace SymbolIndex.Text

/-- The controls below U+0080 that a terminal obeys, other than those that lay out text. -/
def isTerminalControl (c : Char) : Bool :=
  ['\x07', '\x08', '\x0c', '\x1b', '\x7f'].contains c

/-- A character, or its code point if it steers a terminal. -/
def visibleChar (c : Char) : List Char :=
  if isTerminalControl c then '\\' :: 'x' :: Hex.digits 2 c.toNat
  else if 0x80 ≤ c.toNat ∧ c.toNat ≤ 0x9F then
    ['\\', 'u', '\x7b'] ++ Hex.digits 2 c.toNat ++ ['\x7d']
  else [c]

def visible (text : String) : String :=
  String.ofList (text.toList.flatMap visibleChar)

end SymbolIndex.Text
