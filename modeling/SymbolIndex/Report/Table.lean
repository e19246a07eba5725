import SymbolIndex.Text.Lines
import SymbolIndex.Text.Width

/-!
# `SymbolIndex.Report.Table` — labels and values in a frame

Two columns under the headings Metric and Value, in a frame with round corners. A column is as wide
as its widest line and has a blank on either side; a cell with line breaks takes several lines.

## Contents
- `columnWidth`: the width of a column.
- `table`: rows of texts; `countsTable`: rows of counts.
-/

namespace SymbolIndex.Report

open Text

/-- The width of the widest line of any cell. -/
def columnWidth (cells : List (List (List Char))) : Nat :=
  ((cells.flatMap id).map Width.width).foldl max 0

/-- A line filled up with blanks to a width, and a blank on either side. -/
def pad (width : Nat) (line : List Char) : List Char :=
  ' ' :: line ++ List.replicate (width - Width.width line + 1) ' '

/-- A horizontal rule over columns of the given widths. -/
def rule (left middle right : Char) (widths : Nat × Nat) : List Char :=
  left :: List.replicate (widths.1 + 2) '─' ++ middle :: List.replicate (widths.2 + 2) '─' ++ [right]

/-- The lines of one row of cells; the shorter cell is filled up with empty lines. -/
def rowLines (widths : Nat × Nat) (row : List (List Char) × List (List Char)) : List (List Char) :=
  let height := max row.1.length row.2.length
  (List.range height).map fun i =>
    '│' :: pad widths.1 (row.1.getD i []) ++ '│' :: pad widths.2 (row.2.getD i []) ++ ['│']

/-- A framed table of labels and values. Without rows there is none. -/
def table (rows : List (String × String)) : String :=
  if rows = [] then ""
  else
    let cells := (("Metric", "Value") :: rows).map fun (label, value) =>
      (splitLines label.toList, splitLines value.toList)
    let widths := (columnWidth (cells.map Prod.fst), columnWidth (cells.map Prod.snd))
    let lines := cells.map (rowLines widths)
    let inner := match lines with
      | [] => []
      | heading :: body => heading ++ rule '├' '┼' '┤' widths :: body.flatten
    let all := rule '╭' '┬' '╮' widths :: inner ++ [rule '╰' '┴' '╯' widths]
    String.ofList (['\n'].intercalate all)

/-- A framed table of labels and counts. -/
def countsTable (rows : List (String × Nat)) : String :=
  table (rows.map fun (label, count) => (label, Nat.repr count))

end SymbolIndex.Report
