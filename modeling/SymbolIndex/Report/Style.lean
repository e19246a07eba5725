/-!
# `SymbolIndex.Report.Style` — emphasis on a terminal

A style is a role that a piece of text plays. On a terminal it becomes a colour, anywhere else the
text stays as it is.
-/

namespace SymbolIndex.Report

inductive Style where
  | header
  | success
  | error
  | warn
  | info
  | dim
  deriving DecidableEq, Repr, Inhabited

namespace Style

/-- The numbers of the control sequence that starts a style: a colour, then bold or faint. -/
def codes : Style → String
  | header => "36;1"
  | success => "32;1"
  | error => "31;1"
  | warn => "33;1"
  | info => "35"
  | dim => "37;2"

/-- A text in a style. -/
def apply (style : Style) (onTerminal : Bool) (text : String) : String :=
  if onTerminal then "\x1b[" ++ style.codes ++ "m" ++ text ++ "\x1b[0m" else text

end Style

end SymbolIndex.Report
