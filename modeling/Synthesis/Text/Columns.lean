import Synthesis.Text.Cut

/-!
Text in columns. Tabs end the cells of a line; consecutive lines that have a cell in some column
share the width of that column, which is the width of the widest of these cells and a margin. The
last cell of a line belongs to no column. A form feed ends a line and all columns, and so does a
line without a tab.
-/
namespace Synthesis.Text

/-- A line as its cells, and whether the columns end behind it. -/
structure Row where
  cells : List (List Char)
  endsColumns : Bool

namespace Columns

def isCellEnd (c : Char) : Bool := c == '\t' || c == '\x0b'

/-- The pieces between the characters that satisfy `ends`. -/
def pieces (ends : Char → Bool) : List Char → List (List Char)
  | [] => [[]]
  | c :: cs =>
    if ends c then [] :: pieces ends cs
    else match pieces ends cs with
      | [] => [[c]]
      | w :: ws => (c :: w) :: ws

/-- The lines of a text; what follows the last line end is left out. -/
def rowsFrom : List Char → List Char → List Row
  | _, [] => []
  | line, c :: cs =>
    if c == '\n' || c == '\x0c' then
      let cells := pieces isCellEnd line.reverse
      ⟨cells, c == '\x0c' || cells.length == 1⟩ :: rowsFrom [] cs
    else rowsFrom (c :: line) cs

def rows (text : List Char) : List Row := rowsFrom [] text

/-- Blanks between a column and the next one. -/
def margin : Nat := 2

/-- A line whose first cells are as wide as the given columns. -/
def line (widths : List Nat) (cells : List (List Char)) : List Char :=
  (cells.zipIdx.flatMap fun (cell, i) =>
    match widths[i]? with
    | some w => cell ++ List.replicate (w - cell.length) ' '
    | none => cell) ++ ['\n']

/-- The lines in front of the first one with a cell in the column, or of the first one without. -/
def run (has : Bool) (column : Nat) (rs : List (List (List Char))) : List (List (List Char)) :=
  rs.takeWhile fun cells => decide (column + 1 < cells.length) == has

def width (column : Nat) (rs : List (List (List Char))) : Nat :=
  rs.foldl (fun w cells => max w ((cells.getD column []).length + margin)) 0

/-- Lines that share the columns whose widths are given. Each step settles the next column of the
lines that have it, or passes lines that do not. -/
def layOut : Nat → List Nat → List (List (List Char)) → List Char
  | 0, _, _ => []
  | _, _, [] => []
  | fuel + 1, widths, cells :: rest =>
    let column := widths.length
    let rs := cells :: rest
    let has := decide (column + 1 < cells.length)
    let block := run has column rs
    let front :=
      if has then layOut fuel (widths ++ [width column block]) block
      else block.flatMap (line widths)
    front ++ layOut fuel widths (rs.drop block.length)

/-- The lines up to the end of the columns, and those behind. -/
def split : List Row → List Row × List Row
  | [] => ([], [])
  | r :: rs =>
    if r.endsColumns then ([r], rs)
    else
      let (block, rest) := split rs
      (r :: block, rest)

def layOutAll : Nat → List Row → List Char
  | 0, _ => []
  | _, [] => []
  | fuel + 1, rs =>
    let (block, rest) := split rs
    let cells := block.map (·.cells)
    let size := (cells.map List.length).foldl (· + ·) cells.length
    layOut (size + 1) [] cells ++ layOutAll fuel rest

end Columns

/-- The text with its tabs resolved; it should end with a line end. -/
def inColumns (text : String) : String :=
  let rs := Columns.rows text.toList
  String.ofList (Columns.layOutAll rs.length rs)

end Synthesis.Text
