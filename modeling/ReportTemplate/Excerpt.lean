import ReportTemplate.Diagnostic
import ReportTemplate.Text.Search
import ReportTemplate.Text.Width

/-!
# ReportTemplate.Excerpt — a diagnostic shown in its source

A diagnostic is shown with the lines it is about, boxed, and with its message under the place.  The
offsets of the span count characters here.  A span inside one line is underlined; of a span over
several lines the first and the last are shown.  A span that ends in front of its beginning cannot be
shown at all.
-/

namespace ReportTemplate.Excerpt

/-- A line of the source: the offset of its first character, and its text with its end. -/
structure Line where
  offset : Nat
  text : List Char
deriving DecidableEq, Repr

namespace Line

/-- The offset behind the line. -/
def stop (l : Line) : Nat := l.offset + l.text.length

/-- The line holds the character at an offset. -/
def holds (l : Line) (offset : Nat) : Bool := l.offset ≤ offset && offset < l.stop

/-- The text without the white space at its end. -/
def shown (l : Line) : List Char := Text.trimEnd l.text

end Line

/-- A character that ends a line; a carriage return and the line feed behind it end it together. -/
def endsLine (c : Char) : Bool :=
  c = '\n' || c = '\r' || c = '\x0b' || c = '\x0c' || c = '\u0085' || c = '\u2028' || c = '\u2029'

/-- The lines of a text that begins at `offset`; `line` is the open one in reverse. -/
def linesFrom (offset : Nat) (line : List Char) : List Char → List Line
  | [] => if line.isEmpty then [] else [⟨offset, line.reverse⟩]
  | '\r' :: '\n' :: s =>
    ⟨offset, ('\n' :: '\r' :: line).reverse⟩ :: linesFrom (offset + line.length + 2) [] s
  | c :: s =>
    if endsLine c then ⟨offset, (c :: line).reverse⟩ :: linesFrom (offset + line.length + 1) [] s
    else linesFrom offset (c :: line) s

/-- The lines of a source.  An empty line behind the last line end does not count. -/
def lines (source : List Char) : List Line := linesFrom 0 [] source

/-- The index of the line of an offset, the end of the source included. -/
def lineOf? (ls : List Line) (offset : Nat) : Option Nat :=
  match ls.getLast? with
  | none => none
  | some last =>
    if last.stop < offset then none else some ((ls.countP fun l => l.offset ≤ offset) - 1)

/-- What is drawn for the character at an index of its line, and the columns that it takes. -/
def glyph (i : Nat) (c : Char) : Char × Nat :=
  if c = '\t' then (' ', 4 - i % 4)
  else if Text.isBlank c then (' ', 1)
  else (c, Text.columns c)

/-- The text of a line as it is drawn. -/
def drawn (text : List Char) : List Char :=
  text.zipIdx.flatMap fun (c, i) =>
    let (g, width) := glyph i c
    if g = ' ' then List.replicate width g else [g]

/-- Columns of which the first holds one character and the others another. -/
def cell (width : Nat) (mark : Char × Char) : List Char :=
  match width with
  | 0 => []
  | w + 1 => mark.1 :: List.replicate w mark.2

/-- A row under the text of a line: for each of `n` indices from `i` on, a first character and another
for the columns behind the first.  Behind the text every index takes one column. -/
def rowFrom (mark : Nat → Char × Char) (i : Nat) : Nat → List Char → List Char
  | 0, _ => []
  | n + 1, [] => cell 1 (mark i) ++ rowFrom mark (i + 1) n []
  | n + 1, c :: text => cell (glyph i c).2 (mark i) ++ rowFrom mark (i + 1) n text

/-- A row under a line, for so many of its indices. -/
def row (text : List Char) (n : Nat) (mark : Nat → Char × Char) : List Char := rowFrom mark 0 n text

/-- The underline of the characters from `start` up to `stop`, with its stem. -/
def underline (text : List Char) (start stop : Nat) : List Char :=
  row text (stop + 2) fun i =>
    let inside := start ≤ i && i < stop
    if i = (start + stop) / 2 then (if inside then ('┬', '─') else ('│', ' '))
    else if inside then ('─', '─')
    else (' ', ' ')

/-- The arm from the stem of an underline to the message. -/
def arm (text : List Char) (start stop : Nat) : List Char :=
  row text (stop + 2) fun i =>
    if i = (start + stop) / 2 then ('╰', '─')
    else if (start + stop) / 2 < i then ('─', '─')
    else (' ', ' ')

/-- A row of the box without a line number. -/
def margin (width : Nat) (bar : Char) : List Char := List.replicate (width + 2) ' ' ++ [bar]

/-- A row of the box with a line number, counted from one. -/
def numbered (width index : Nat) : List Char :=
  let digits := Nat.toDigits 10 (index + 1)
  ' ' :: List.replicate (width - digits.length) ' ' ++ digits ++ " │ ".toList

/-- The rows for a line that holds the whole span. -/
def inlineRows (width index : Nat) (l : Line) (span : Span) (message : List Char) :
    List (List Char) :=
  if l.stop < span.stop then [margin width '│' ++ [' ']]
  else
    let start := span.start - l.offset
    let stop := span.stop - l.offset
    [numbered width index ++ drawn l.shown,
      margin width '│' ++ ' ' :: underline l.shown start stop,
      margin width '│' ++ ' ' :: arm l.shown start stop ++ ' ' :: message]

/-- The rows for lines that hold a part of the span; `gap` says that lines have just been left out. -/
def spreadRows (width : Nat) (span : Span) (message : List Char) (gap : Bool) :
    List (Line × Nat) → List (List Char)
  | [] => []
  | (l, index) :: ls =>
    let last := max span.start (span.stop - 1)
    if l.holds span.start then
      (numbered width index ++ "╭─▶ ".toList ++ drawn l.shown)
        :: spreadRows width span message false ls
    else if l.holds last then
      let below := l.text.length + 2
      (numbered width index ++ "├─▶ ".toList ++ drawn l.shown)
        :: (margin width '│' ++ " │   ".toList ++ row l.shown below fun _ => (' ', ' '))
        :: (margin width '│' ++ " ╰───".toList ++ (row l.shown below fun _ => ('─', '─'))
            ++ ' ' :: message)
        :: spreadRows width span message false ls
    else if gap then spreadRows width span message true ls
    else (margin width '┆' ++ " ┆   ".toList) :: spreadRows width span message true ls

/-- The rows of the box for lines `first` to `last`. -/
def boxRows (ls : List Line) (filename : List Char) (first last : Nat) (span : Span)
    (message : List Char) : List (List Char) :=
  let width := (Nat.toDigits 10 (last + 1)).length
  let numberedLines := ((ls.zipIdx).drop first).take (last + 1 - first)
  let column := span.start - (ls[first]?.map Line.offset).getD 0 + 1
  let place := filename ++ ':' :: Nat.toDigits 10 (first + 1) ++ ':' :: Nat.toDigits 10 column
  let body := match numberedLines with
    | [(l, index)] => inlineRows width index l span message
    | many => spreadRows width span message false many
  [List.replicate (width + 2) ' ' ++ "╭─[".toList ++ place ++ "]".toList, margin width '│']
    ++ body ++ [List.replicate (width + 2) '─' ++ ['╯']]

/-- The first and the last line of a span, if both lie in the source. -/
def lineRange? (ls : List Line) (span : Span) : Option (Nat × Nat) := do
  let first ← lineOf? ls span.start
  let last ← if span.start < span.stop then lineOf? ls (span.stop - 1) else some first
  pure (first, last)

/-- What a diagnostic is called. -/
def title (d : Diagnostic) : String := if d.isFailure then "Error" else "Warning"

/-- The text about a diagnostic whose span does not run backwards.  A span outside the source leaves the
first row only. -/
def render (source : List Char) (filename : String) (d : Diagnostic) : String :=
  let ls := lines source
  let message := d.fullMessage.toList
  let first := ("[" ++ d.code.text ++ "] " ++ title d ++ ": ").toList ++ message
  let rows := match lineRange? ls d.span with
    | some (a, b) => first :: boxRows ls filename.toList a b d.span message
    | none => [first]
  String.ofList (rows.flatMap fun r => r ++ ['\n'])

/-- The diagnostic in its source.  What draws the box refuses a span that runs backwards, and the program
is broken off there. -/
def format? (source : List Char) (filename : String) (d : Diagnostic) : Option String :=
  if d.span.start ≤ d.span.stop then some (render source filename d) else none

end ReportTemplate.Excerpt
