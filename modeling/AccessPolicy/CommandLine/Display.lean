import AccessPolicy.Text.Width

/-!
# What a terminal shows

Output is made of rows of *cells*, and a terminal shows a row on one line, the cells apart by at
least two spaces. So what can be read off the terminal is not always what was put into the cells: a
text with a line break goes on below, tabs become spaces, characters that move the cursor are not
shown, and two spaces inside a text look like those between cells.

`shownRows` says which rows of cells can be read off.
-/

namespace AccessPolicy.CommandLine

/-- The characters that frame what is shown. -/
def isFrame (c : Char) : Bool :=
  c = ' ' || c = '─' || c = '╭' || c = '╮' || c = '╰' || c = '╯' || c = '│'

/-- Characters that are never shown: bell, backspace, vertical tab, form feed, carriage return. -/
def isHidden (c : Char) : Bool :=
  c = '\x07' || c = '\x08' || c = '\x0B' || c = '\x0C' || c = '\r'

/-- Whether a style begins after an opening bracket: a lower-case letter, `#`, `/` or `@`, and a
closing bracket before another opening one. -/
def startsStyle : List Char → Bool
  | [] => false
  | c :: rest =>
    (('a' ≤ c && c ≤ 'z') || c = '#' || c = '/' || c = '@')
      && (rest.dropWhile fun c => c ≠ '[' && c ≠ ']').head? = some ']'

/-- Leaves out a backslash in front of a bracket that begins no style. -/
def dropEscapes : List Char → List Char
  | '\\' :: '[' :: rest =>
    if startsStyle rest then '\\' :: '[' :: dropEscapes rest else '[' :: dropEscapes rest
  | c :: rest => c :: dropEscapes rest
  | [] => []

/-- Writes tabs as spaces up to the next column that eight divides. -/
def expandTabs (column : Nat) : List Char → List Char
  | [] => []
  | '\t' :: rest =>
    List.replicate (8 - column % 8) ' ' ++ expandTabs (column + (8 - column % 8)) rest
  | c :: rest => c :: expandTabs (if c = '\n' then 0 else column + Text.columns c) rest

/-- A text as it is shown. -/
def shownText (text : String) : List Char :=
  expandTabs 0 ((dropEscapes text.toList).filter fun c => !isHidden c)

/-- A text as it is shown in a cell of its own: a single backslash at its end is shown twice. -/
def cellText (text : String) : String :=
  match text.toList.reverse with
  | '\\' :: '\\' :: _ => text
  | '\\' :: _ => text ++ "\\"
  | _ => text

/-- A text as it is shown in bold in the middle of a line: of several backslashes at its end, which
stand in front of the mark that ends the bold part, every second is shown, and where one is left
over, so is the mark. -/
def boldText (text : String) : String :=
  let reversed := text.toList.reverse
  let body := reversed.dropWhile (· = '\\')
  let count := reversed.length - body.length
  if count < 2 then text
  else
    String.ofList (body.reverse ++ List.replicate (count / 2) '\\')
      ++ (if count % 2 = 1 then "[/bold]" else "")

/-- Splits a line at runs of two or more spaces, after the end of a cell if `inGap` says so. -/
def splitCells : (cell : List Char) → (inGap : Bool) → List Char → List (List Char)
  | cell, _, [] => [cell.reverse]
  | cell, true, ' ' :: rest => splitCells cell true rest
  | cell, _, ' ' :: ' ' :: rest => cell.reverse :: splitCells [] true rest
  | cell, _, c :: rest => splitCells (c :: cell) false rest

/-- Leaves out what frames a line. -/
def trimFrame (line : List Char) : List Char :=
  ((line.dropWhile isFrame).reverse.dropWhile isFrame).reverse

/-- The cells that can be read off a line; none where it shows nothing. -/
def lineCells (line : List Char) : Option (List String) :=
  match trimFrame line with
  | [] => none
  | line => some ((splitCells [] false line).map String.ofList)

/-- The lines on which the cells of a row are shown, side by side. -/
def rowLines (cells : List (List Char)) : List (List Char) :=
  let columns := cells.map fun cell => cell.splitOn '\n'
  let height := columns.foldl (fun height lines => max height lines.length) 0
  (List.range height).map fun i =>
    [' ', ' '].intercalate (columns.map fun lines => lines.getD i [])

/-- The rows that can be read off when rows are shown. -/
def shownRows (rows : List (List String)) : List (List String) :=
  (rows.flatMap fun cells => rowLines (cells.map shownText)).filterMap lineCells

end AccessPolicy.CommandLine
