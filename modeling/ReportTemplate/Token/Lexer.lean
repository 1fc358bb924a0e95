import ReportTemplate.Number.Read
import ReportTemplate.Token

/-!
# ReportTemplate.Token.Lexer — a source cut into tokens

The source is cut into pieces from the left, each as long as it can be: blanks, comments and tokens.
The pieces follow one another without a gap, and the tokens among them are kept with their spans.
-/

namespace ReportTemplate

namespace Lexer

/-- What a piece of the source is. -/
inductive Lexeme where
  | blank
  | comment
  | token (t : Token)
deriving DecidableEq, Repr

/-- A piece of the source and its text. -/
structure Piece where
  lexeme : Lexeme
  text : List Char
deriving DecidableEq, Repr

/-- The blanks between tokens. -/
def isSeparator (c : Char) : Bool := c = ' ' || c = '\t' || c = '\n' || c = '\r'

def isIdentStart (c : Char) : Bool := ('a' ≤ c && c ≤ 'z') || ('A' ≤ c && c ≤ 'Z') || c = '_'

def isIdentPart (c : Char) : Bool := isIdentStart c || Number.isDigit c

/-- What a backslash and the character behind it stand for. -/
def escaped : Char → Char
  | 'n' => '\n'
  | 't' => '\t'
  | 'r' => '\r'
  | '0' => '\x00'
  | c => c

/-- Resolves the escapes of a string between its quotes. -/
def unescape : List Char → List Char
  | [] => []
  | c :: r =>
    if c = '\\' then
      match r with
      | [] => ['\\']
      | d :: r => escaped d :: unescape r
    else c :: unescape r

/-- How the body of a string ends. -/
inductive Closing where
  /-- With its closing quote. -/
  | quote
  /-- With the input. -/
  | endOfInput
  /-- Before a backslash that stands before a line feed or the end of the input. -/
  | badEscape
deriving DecidableEq, Repr

/-- The number of characters of a string behind its opening quote, and how it ends. -/
def stringBody : List Char → Nat × Closing
  | [] => (0, .endOfInput)
  | c :: r =>
    if c = '"' then (1, .quote)
    else if c = '\\' then
      match r with
      | [] => (0, .badEscape)
      | d :: r =>
        if d = '\n' then (0, .badEscape)
        else
          let (n, e) := stringBody r
          (n + 2, e)
    else
      let (n, e) := stringBody r
      (n + 1, e)

/-- The number of characters of a block comment behind its opening, and whether it is closed.  A star
and the character behind it are passed over together, so a star in front of `*/` hides it; a single
star at the end of the input is left out. -/
def blockBody : List Char → Nat × Bool
  | [] => (0, false)
  | c :: r =>
    if c = '*' then
      match r with
      | [] => (0, false)
      | d :: r =>
        if d = '/' then (2, true)
        else
          let (n, closed) := blockBody r
          (n + 2, closed)
    else
      let (n, closed) := blockBody r
      (n + 1, closed)

/-- A word is a keyword or an identifier. -/
def word (text : List Char) : Token :=
  let name := String.ofList text
  match Keyword.ofText? name with
  | some k => .keyword k
  | none => .ident name

/-- Digits are an integer if they fit in 64 bits. -/
def integer (text : List Char) : Token :=
  match Number.readNat? text with
  | some n => if n < Nat.pow 2 63 then .int (Int64.ofNat n) else .unknown (String.ofList text)
  | none => .unknown (String.ofList text)

/-- The piece that begins with `c` in front of `r`, as what it is and the number of characters behind
`c` that belong to it. -/
def munch (c : Char) (r : List Char) : Lexeme × Nat :=
  let unknown (n : Nat) : Lexeme × Nat := (.token (.unknown (String.ofList (c :: r.take n))), n)
  if isSeparator c then (.blank, (r.takeWhile isSeparator).length)
  else if isIdentStart c then
    let part := r.takeWhile isIdentPart
    (.token (word (c :: part)), part.length)
  else if Number.isDigit c then
    let whole := r.takeWhile Number.isDigit
    let places := match r.dropWhile Number.isDigit with
      | '.' :: s => s.takeWhile Number.isDigit
      | _ => []
    if places.isEmpty then (.token (integer (c :: whole)), whole.length)
    else
      let x := Number.nearestFloat false (c :: (whole ++ places)) (-places.length)
      (.token (.float x), whole.length + 1 + places.length)
  else if c = '"' then
    match stringBody r with
    | (n, .quote) => (.token (.string (String.ofList (unescape (r.take (n - 1))))), n)
    | (n, _) => unknown n
  else if startsComment '/' then (.comment, (r.takeWhile (· ≠ '\n')).length)
  else if startsComment '*' then
    match blockBody (r.drop 1) with
    | (n, true) => (.comment, n + 1)
    | (n, false) => unknown (n + 1)
  else
    match Symbol.atStart? (c :: r) with
    | some k => (.token (.symbol k), k.text.length - 1)
    | none => unknown 0
where
  startsComment (d : Char) : Bool := c = '/' && r.head? = some d

/-- The pieces of a text of which the first `skip` characters belong to the piece before. -/
def piecesFrom : Nat → List Char → List Piece
  | _, [] => []
  | 0, c :: r =>
    let (lexeme, n) := munch c r
    ⟨lexeme, c :: r.take n⟩ :: piecesFrom n r
  | skip + 1, _ :: r => piecesFrom skip r

/-- The source cut into pieces. -/
def pieces (source : List Char) : List Piece := piecesFrom 0 source

/-- The tokens among pieces that begin at `offset`, with their spans. -/
def locate (offset : Nat) : List Piece → List Located
  | [] => []
  | p :: ps =>
    let stop := offset + Text.byteSize p.text
    match p.lexeme with
    | .token t => ⟨t, ⟨offset, stop⟩⟩ :: locate stop ps
    | _ => locate stop ps

end Lexer

/-- The tokens of a source. -/
def lex (source : List Char) : List Located := Lexer.locate 0 (Lexer.pieces source)

end ReportTemplate
