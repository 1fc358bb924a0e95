import ReportTemplate.Text.Blank
import ReportTemplate.Text.Search
import ReportTemplate.Text.Word

/-!
# ReportTemplate.LogCall — log calls that record their place

A template writes `log(e);` on a line of its own.  Before it is compiled, each such call becomes
`log(n, "e", e);` with the number of its line and the text of its argument.  The expansion looks at
one line at a time:

* `log` begins the line or stands behind white space, and the argument runs to the last `);`;
* a line with more than one `log(` is left as it is;
* the short declaration `log: fn(any)` becomes `log: fn(int, string, any)`.
-/

namespace ReportTemplate.LogCall

open Text (isBlank isWord startsWith)

/-! ### Declarations -/

/-- The rest of a text behind blanks and a fixed text. -/
def afterBlanks? (fixed : List Char) (s : List Char) : Option (List Char) :=
  let r := s.dropWhile isBlank
  if startsWith fixed r then some (r.drop fixed.length) else none

/-- The rest of a text behind the declaration `log: fn(any)`, with any blanks between its words. -/
def afterDeclaration? (s : List Char) : Option (List Char) := do
  if startsWith "log".toList s then
    let r ← afterBlanks? ":".toList (s.drop 3)
    let r ← afterBlanks? "fn(".toList r
    let r ← afterBlanks? "any".toList r
    afterBlanks? ")".toList r
  else none

/-- The declaration that receives the line, the text and the value. -/
def fullDeclaration : List Char := "log: fn(int, string, any)".toList

/-- A declaration stands behind one of these, or begins the line. -/
def leadsDeclaration (c : Char) : Bool := isBlank c || c = '(' || c = ','

/-- Replaces the declarations of a text of which `skip` characters belong to one already replaced;
`lead` says that a declaration may begin here. -/
def upgradeFrom (lead : Bool) (skip : Nat) : List Char → List Char
  | [] => []
  | c :: r =>
    match skip with
    | skip + 1 => upgradeFrom false skip r
    | 0 =>
      match if lead then afterDeclaration? (c :: r) else none with
      | some rest => fullDeclaration ++ upgradeFrom false (r.length - rest.length) r
      | none => c :: upgradeFrom (leadsDeclaration c) 0 r

/-- The line with every short declaration in its full form. -/
def upgradeDeclarations (line : List Char) : List Char := upgradeFrom true 0 line

/-! ### Calls -/

/-- What a call begins with. -/
def opening : List Char := "log(".toList

/-- The number of places where `log(` begins a word; `inWord` says that a word character stands in
front. -/
def sitesFrom (inWord : Bool) : List Char → Nat
  | [] => 0
  | c :: r =>
    (if !inWord && startsWith opening (c :: r) then 1 else 0) + sitesFrom (isWord c) r

/-- The number of `log(` on a line. -/
def sites (line : List Char) : Nat := sitesFrom false line

/-- The text in front of the last `);` and the text behind it. -/
def splitLastClose? : List Char → Option (List Char × List Char)
  | [] => none
  | c :: r =>
    match splitLastClose? r with
    | some (argument, tail) => some (c :: argument, tail)
    | none => if c = ')' && r.head? = some ';' then some ([], r.drop 1) else none

/-- The text as it stands inside a string literal. -/
def escape (s : List Char) : List Char :=
  s.flatMap fun c => if c = '\\' || c = '"' then ['\\', c] else [c]

/-- The call that records line `number` and the text of its argument. -/
def recorded (number : Nat) (argument : List Char) : List Char :=
  opening ++ Nat.toDigits 10 number ++ ", \"".toList ++ escape argument ++ "\", ".toList
    ++ argument ++ ");".toList

/-- Expands the first call of a line that is closed; `lead` says that a call may begin here. -/
def expandFrom? (number : Nat) (lead : Bool) : List Char → Option (List Char)
  | [] => none
  | c :: r =>
    match if lead && startsWith opening (c :: r) then splitLastClose? (r.drop 3) else none with
    | some (argument, tail) => some (recorded number argument ++ tail)
    | none => (expandFrom? number (isBlank c) r).map (c :: ·)

/-- The line with its call expanded, if it holds one `log(` only. -/
def expandCall (number : Nat) (line : List Char) : List Char :=
  if sites line = 1 then (expandFrom? number true line).getD line else line

/-! ### Sources -/

/-- Line `number` of a source as it is compiled. -/
def expandLine (number : Nat) (line : List Char) : List Char :=
  expandCall number (upgradeDeclarations line)

/-- Expands lines that are counted from `number`. -/
def expandLines (number : Nat) : List (List Char) → List (List Char)
  | [] => []
  | line :: lines => expandLine number line :: expandLines (number + 1) lines

/-- The source as it is compiled, line by line. -/
def expand (source : List Char) : List Char :=
  ['\n'].intercalate (expandLines 1 (Text.split source ['\n']))

end ReportTemplate.LogCall
