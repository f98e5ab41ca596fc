import Retrofit.Package.Basic
import Retrofit.Text.Pieces
import Retrofit.Unicode.Width

/-!
# Tables

A table has a frame, one line under its header and none between its rows. Every column is as wide as
its widest cell. A cell with line breaks takes several lines, and its row as many as the tallest of
its cells.
-/

namespace Retrofit

namespace Table

def cellLines (cell : String) : List (List Char) :=
  Text.pieces '\n' cell.toList

/-- The columns that a cell takes. -/
def cellWidth (cell : String) : Nat :=
  ((cellLines cell).map Unicode.textWidth).foldl max 0

def widths (rows : List (List String)) : List Nat :=
  rows.foldl (fun ws row => ws.zipWith max (row.map cellWidth))
    (((rows.head?).getD []).map fun _ => 0)

/-- A text with blanks behind it up to a width, and a blank on both sides. -/
def padded (width : Nat) (text : List Char) : String :=
  " " ++ String.ofList text ++ String.ofList (List.replicate (width - Unicode.textWidth text) ' ')
    ++ " "

def border (left line middle right : String) (widths : List Nat) : String :=
  left ++ middle.intercalate (widths.map fun w => String.join (List.replicate (w + 2) line)) ++
    right

def rowLines (widths : List Nat) (row : List String) : List String :=
  let cells := row.map cellLines
  let height := (cells.map List.length).foldl max 0
  (List.range height).map fun i =>
    let texts := widths.zipWith (fun w lines => padded w ((lines[i]?).getD [])) cells
    "│" ++ "┆".intercalate texts ++ "│"

def lines (header : List String) (rows : List (List String)) : List String :=
  let ws := widths (header :: rows)
  [border "┌" "─" "┬" "┐" ws] ++ rowLines ws header ++ [border "╞" "═" "╪" "╡" ws]
    ++ rows.flatMap (rowLines ws) ++ [border "└" "─" "┴" "┘" ws]

end Table

/-- The table of the packages, with the number of their files and the files that are patched. -/
def PackageMap.table (packages : PackageMap) : List String :=
  Table.lines ["Package", "Version", "Files", "Patched"] <|
    packages.entries.map fun (name, record) =>
      [name, record.version, toString record.files.length,
        ", ".intercalate (record.patchedFiles.map Prod.fst)]

end Retrofit
