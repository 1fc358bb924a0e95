import ReportTemplate.Text.Search
import ReportTemplate.Toml.Scalar

/-!
# ReportTemplate.Toml.Reader — from text to tables

Blanks are spaces and tabs, and a line ends at a line feed with or without a carriage return in front.
Control characters stand nowhere.  Headers name one table, since settings have no tables inside tables.
-/

namespace ReportTemplate.Toml

/-- What stands against a file. -/
inductive Fault where
  /-- A statement that begins on this line cannot be read. -/
  | malformed (line : Nat)
  | repeated (key : List String)
deriving DecidableEq, Repr

def Fault.message : Fault → String
  | malformed line => "line " ++ toString line ++ " is malformed"
  | repeated key => "'" ++ ".".intercalate key ++ "' is set again"

namespace Reader

/-! ### Layout -/

def isSpace (c : Char) : Bool := c = ' ' || c = '\t'

/-- A character that may stand in a comment or a string. -/
def isText (c : Char) : Bool := c = '\t' || (32 ≤ c.toNat && c.toNat ≠ 127)

def skipSpaces (s : List Char) : List Char := s.dropWhile isSpace

/-- What follows the end of a line. -/
def afterNewline? : List Char → Option (List Char)
  | '\n' :: s => some s
  | '\r' :: '\n' :: s => some s
  | _ => none

/-- The text without the blanks, lines and comments in front; `inComment` says that a comment is
open. -/
def skipLayout (inComment : Bool) : List Char → List Char
  | [] => []
  | '\r' :: '\n' :: s => skipLayout false s
  | c :: s =>
    if c = '\n' then skipLayout false s
    else if inComment then if isText c then skipLayout true s else c :: s
    else if isSpace c then skipLayout false s
    else if c = '#' then skipLayout true s
    else c :: s

/-- What follows a line of which only blanks and a comment are left. -/
def afterLine? (s : List Char) : Option (List Char) :=
  let r := match skipSpaces s with
    | '#' :: r => r.dropWhile isText
    | r => r
  if r.isEmpty then some [] else afterNewline? r

/-! ### Strings -/

/-- The character whose number stands in the next `n` digits. -/
def coded? (n : Nat) (s : List Char) : Option Char := do
  let digits ← (s.take n).mapM (digitIn? 16)
  let number := digits.foldl (fun a d => a * 16 + d) 0
  if digits.length = n ∧ number.isValidChar then some (Char.ofNat number) else none

/-- What stands for itself or another character behind a backslash, and how long it is. -/
def escape? : List Char → Option (Char × Nat)
  | 'b' :: _ => some ('\x08', 1)
  | 't' :: _ => some ('\t', 1)
  | 'n' :: _ => some ('\n', 1)
  | 'f' :: _ => some ('\x0c', 1)
  | 'r' :: _ => some ('\r', 1)
  | '"' :: _ => some ('"', 1)
  | '\\' :: _ => some ('\\', 1)
  | 'u' :: s => (coded? 4 s).map fun c => (c, 5)
  | 'U' :: s => (coded? 8 s).map fun c => (c, 9)
  | _ => none

/-- Only between double quotes does a backslash escape. -/
def escapes (quote : Char) : Bool := quote = '"'

/-- A string that ends on its line.  `done` is what has been read, in reverse; `skip` counts the
characters of an escape that are still to be passed over. -/
def lineString (quote : Char) (done : List Char) (skip : Nat) :
    List Char → Option (List Char × List Char)
  | [] => none
  | c :: s =>
    match skip with
    | skip + 1 => lineString quote done skip s
    | 0 =>
      if c = quote then some (done.reverse, s)
      else if escapes quote && c = '\\' then
        match escape? s with
        | some (d, used) => lineString quote (d :: done) used s
        | none => none
      else if isText c then lineString quote (c :: done) 0 s
      else none

/-- The text without the blanks and line ends in front. -/
def skipBreaks : List Char → List Char
  | [] => []
  | '\r' :: '\n' :: s => skipBreaks s
  | c :: s => if c = '\n' || isSpace c then skipBreaks s else c :: s

/-- The length of the blanks and line ends behind a backslash at the end of a line. -/
def foldedLength? (s : List Char) : Option Nat :=
  (afterNewline? (skipSpaces s)).map fun r => s.length - (skipBreaks r).length

/-- A string over several lines: three quotes end it, and up to two in front of them belong to it. -/
def blockString (quote : Char) (done : List Char) (skip : Nat) :
    List Char → Option (List Char × List Char)
  | [] => none
  | c :: s =>
    match skip with
    | skip + 1 => blockString quote done skip s
    | 0 =>
      if c = quote then
        let quotes := ((c :: s).takeWhile (· = quote)).length
        if quotes < 3 then blockString quote (c :: done) 0 s
        else
          let kept := min (quotes - 3) 2
          some ((List.replicate kept quote ++ done).reverse, s.drop (kept + 2))
      else if escapes quote && c = '\\' then
        match foldedLength? s with
        | some used => blockString quote done used s
        | none =>
          match escape? s with
          | some (d, used) => blockString quote (d :: done) used s
          | none => none
      else if c = '\n' || isText c then blockString quote (c :: done) 0 s
      else if c = '\r' && s.head? = some '\n' then blockString quote ('\n' :: done) 1 s
      else none

/-- The string behind its first quote. -/
def string? (quote : Char) (s : List Char) : Option (List Char × List Char) :=
  if Text.startsWith [quote, quote] s then
    let r := s.drop 2
    blockString quote [] 0 ((afterNewline? r).getD r)
  else lineString quote [] 0 s

/-! ### Keys and values -/

def isBare (c : Char) : Bool := c.isAlphanum || c = '_' || c = '-'

/-- One part of a key. -/
def key? : List Char → Option (String × List Char)
  | [] => none
  | c :: s =>
    if c = '"' || c = '\'' then (lineString c [] 0 s).map fun (k, r) => (String.ofList k, r)
    else
      let bare := (c :: s).takeWhile isBare
      if bare.isEmpty then none else some (String.ofList bare, (c :: s).dropWhile isBare)

/-- The most parts of a dotted key, and the most arrays and tables inside one another. -/
def maxDepth : Nat := 79

/-- A dotted key of at most so many parts, and the blanks behind it. -/
def keysWithin : Nat → List Char → Option (List String × List Char)
  | 0, _ => none
  | parts + 1, s => do
    let (k, r) ← key? (skipSpaces s)
    match skipSpaces r with
    | '.' :: r =>
      let (ks, r) ← keysWithin parts r
      some (k :: ks, r)
    | r => some ([k], r)

/-- A dotted key and the blanks behind it. -/
def keys? (s : List Char) : Option (List String × List Char) := keysWithin maxDepth s

/-- The items of an array behind those in `done`, which are in reverse. -/
def items? (value? : List Char → Option (Value × List Char)) :
    Nat → List Value → List Char → Option (List Value × List Char)
  | 0, _, _ => none
  | fuel + 1, done, s =>
    match skipLayout false s with
    | ']' :: r => some (done.reverse, r)
    | s => do
      let (v, r) ← value? s
      match skipLayout false r with
      | ',' :: r => items? value? fuel (v :: done) r
      | ']' :: r => some ((v :: done).reverse, r)
      | _ => none

/-- A key with its value. -/
def pair? (value? : List Char → Option (Value × List Char)) (s : List Char) :
    Option ((List String × Value) × List Char) := do
  match ← keys? s with
  | (key, '=' :: r) =>
    let (v, r) ← value? (skipSpaces r)
    some ((key, v), r)
  | _ => none

/-- The fields of a table on one line behind those in `fields`. -/
def fields? (value? : List Char → Option (Value × List Char)) :
    Nat → Fields → List Char → Option (Fields × List Char)
  | 0, _, _ => none
  | fuel + 1, fields, s => do
    let ((key, v), r) ← pair? value? s
    let fields ← insert? v key fields
    match skipSpaces r with
    | ',' :: r => fields? value? fuel fields r
    | '}' :: r => some (fields, r)
    | _ => none

/-- A value without others in it, that begins with a character. -/
def scalar? (c : Char) (s : List Char) : Option (Value × List Char) :=
  if c = '"' || c = '\'' then
    (string? c s).map fun (text, r) => (.string (String.ofList text), r)
  else if Text.startsWith "true".toList (c :: s) then some (.boolean true, s.drop 3)
  else if Text.startsWith "false".toList (c :: s) then some (.boolean false, s.drop 4)
  else dateTime? (c :: s) <|> number? (c :: s)

/-- An array behind its bracket. -/
def array? (value? : List Char → Option (Value × List Char)) (s : List Char) :
    Option (Value × List Char) :=
  (items? value? (s.length + 1) [] s).map fun (items, r) => (.array items, r)

/-- A table on one line behind its brace. -/
def inlineTable? (value? : List Char → Option (Value × List Char)) (s : List Char) :
    Option (Value × List Char) :=
  match skipSpaces s with
  | '\x7d' :: r => some (.table false [], r)
  | r => (fields? value? (r.length + 1) [] r).map fun (fields, r) => (.table false fields, r)

/-- A value with at most `depth` arrays and tables inside one another. -/
def valueWithin : Nat → List Char → Option (Value × List Char)
  | _, [] => none
  | 0, c :: s => if c = '[' || c = '\x7b' then none else scalar? c s
  | depth + 1, c :: s =>
    if c = '[' then array? (valueWithin depth) s
    else if c = '\x7b' then inlineTable? (valueWithin depth) s
    else scalar? c s

/-- A value. -/
def value? (s : List Char) : Option (Value × List Char) := valueWithin maxDepth s

/-! ### Files -/

/-- A statement and what follows its line. -/
def statement? : List Char → Option (Statement × List Char)
  | '[' :: s => do
    match ← keys? s with
    | ([name], ']' :: r) => some (.header name, ← afterLine? r)
    | _ => none
  | s => do
    let ((key, v), r) ← pair? value? s
    some (.setting key v, ← afterLine? r)

/-- The draft with the statements of a text, or the rest where one cannot be read. -/
def draft (lineAt : List Char → Nat) : Nat → Draft → List Char → Except Fault Draft
  | 0, d, _ => .ok d
  | fuel + 1, d, s =>
    match skipLayout false s with
    | [] => .ok d
    | s =>
      match statement? s with
      | none => .error (.malformed (lineAt s))
      | some (statement, r) =>
        match d.add? statement with
        | some d => draft lineAt fuel d r
        | none => .error (.repeated (match statement with
          | .header name => [name]
          | .setting key _ => key))

end Reader

/-- The tables of a file.  A mark of byte order in front does not count. -/
def read (source : List Char) : Except Fault Fields :=
  let s := match source with
    | '\uFEFF' :: s => s
    | s => s
  let lineAt (rest : List Char) : Nat := s.count '\n' - rest.count '\n' + 1
  (Reader.draft lineAt (s.length + 1) {} s).map Draft.close

end ReportTemplate.Toml
