import ReportTemplate.Number.Read
import ReportTemplate.Toml

/-!
# ReportTemplate.Toml.Scalar — numbers, dates and times as they are written

A number is decimal, or whole in base sixteen, eight or two behind a mark.  Single underscores may
stand between digits, and a decimal number does not begin with an idle zero.  A date and a time are
written by their parts, each within its bounds; either may stand alone.
-/

namespace ReportTemplate.Toml

open Number (Binary64 isDigit)

/-! ### Digits -/

/-- The value of a digit in a base up to sixteen. -/
def digitIn? (base : Nat) (c : Char) : Option Nat :=
  let n :=
    if isDigit c then c.toNat - 48
    else if 'a' ≤ c ∧ c ≤ 'f' then c.toNat - 87
    else if 'A' ≤ c ∧ c ≤ 'F' then c.toNat - 55
    else base
  if n < base then some n else none

/-- The digits in front of a text, behind those in `done`, which are in reverse; single underscores
between digits are left out. -/
def digitsFrom (base : Nat) (done : List Char) : List Char → List Char × List Char
  | '_' :: c :: s =>
    if (digitIn? base c).isSome && !done.isEmpty then digitsFrom base (c :: done) s
    else (done.reverse, '_' :: c :: s)
  | c :: s =>
    if (digitIn? base c).isSome then digitsFrom base (c :: done) s else (done.reverse, c :: s)
  | [] => (done.reverse, [])

/-- At least one digit, and what follows the digits. -/
def digits? (base : Nat) (s : List Char) : Option (List Char × List Char) :=
  match digitsFrom base [] s with
  | ([], _) => none
  | found => some found

/-! ### Numbers -/

/-- Whole numbers have 64 bits with sign. -/
def whole? (n : Int) : Option Value :=
  if Int64.minValue.toInt ≤ n ∧ n ≤ Int64.maxValue.toInt then some (.integer n) else none

/-- The base that the character behind a zero stands for. -/
def base? : Char → Option Nat
  | 'x' => some 16
  | 'o' => some 8
  | 'b' => some 2
  | _ => none

/-- A whole number behind the mark of its base. -/
def marked? (base : Nat) (s : List Char) : Option (Value × List Char) := do
  let (ds, r) ← digits? base s
  let values ← ds.mapM (digitIn? base)
  let v ← whole? (values.foldl (fun n d => n * base + d) 0 : Nat)
  some (v, r)

/-- The sign in front of a number, as it is written. -/
def sign : List Char → List Char × List Char
  | '+' :: s => (['+'], s)
  | '-' :: s => (['-'], s)
  | s => ([], s)

/-- The part of a decimal number in front of the point. -/
def wholePart? (s : List Char) : Option (List Char × List Char) :=
  match digits? 10 s with
  | some ('0' :: _ :: _, _) => none
  | found => found

/-- The point and the places behind it, if there is a point. -/
def placesPart? : List Char → Option (List Char × List Char)
  | '.' :: s => (digits? 10 s).map fun (ds, r) => ('.' :: ds, r)
  | s => some ([], s)

/-- The exponent, if there is one. -/
def exponentPart? : List Char → Option (List Char × List Char)
  | [] => some ([], [])
  | c :: s =>
    if c = 'e' || c = 'E' then
      let (mark, r) := sign s
      (digits? 10 r).map fun (ds, r) => ('e' :: mark ++ ds, r)
    else some ([], c :: s)

/-- A decimal number: whole, unless a point or an exponent makes it a float.  A float above the largest
is refused. -/
def decimal? (s : List Char) : Option (Value × List Char) := do
  let (mark, r) := sign s
  let (ds, r) ← wholePart? r
  let (places, r) ← placesPart? r
  let (power, r) ← exponentPart? r
  if places.isEmpty && power.isEmpty then
    let v ← whole? (← Number.readInt? (mark ++ ds))
    some (v, r)
  else
    let x ← Number.readFloat? (mark ++ ds ++ places ++ power)
    if x = Binary64.infinity then none else some (.float x, r)

/-- A float that is named. -/
def named? (s : List Char) : Option (Value × List Char) := do
  let (mark, r) := sign s
  let name := r.take 3
  if name = "inf".toList ∨ name = "nan".toList then
    let x ← Number.readFloat? (mark ++ name)
    some (.float x, r.drop 3)
  else none

def number? : List Char → Option (Value × List Char)
  | '0' :: c :: s =>
    match base? c with
    | some base => marked? base s
    | none => decimal? ('0' :: c :: s)
  | s => named? s <|> decimal? s

/-! ### Dates and times -/

/-- A number of `n` digits within bounds, and what follows it. -/
def bounded? (n low high : Nat) (s : List Char) : Option (Nat × List Char) := do
  let value ← Number.readNat? (s.take n)
  if (s.take n).length = n ∧ low ≤ value ∧ value ≤ high then some (value, s.drop n) else none

/-- What follows a character. -/
def after? (c : Char) : List Char → Option (List Char)
  | [] => none
  | d :: s => if d = c then some s else none

def isLeapYear (year : Nat) : Bool := year % 4 = 0 && (year % 100 ≠ 0 || year % 400 = 0)

def daysIn (year month : Nat) : Nat :=
  if month = 2 then (if isLeapYear year then 29 else 28)
  else if month = 4 ∨ month = 6 ∨ month = 9 ∨ month = 11 then 30
  else 31

/-- What follows a date. -/
def afterDate? (s : List Char) : Option (List Char) := do
  let (year, r) ← bounded? 4 0 9999 s
  let (month, r) ← bounded? 2 1 12 (← after? '-' r)
  let (_, r) ← bounded? 2 1 (daysIn year month) (← after? '-' r)
  some r

/-- What follows hours and minutes. -/
def afterMinutes? (s : List Char) : Option (List Char) := do
  let (_, r) ← bounded? 2 0 23 s
  let (_, r) ← bounded? 2 0 59 (← after? ':' r)
  some r

/-- What follows a time, whose seconds may have places.  A minute may have a leap second. -/
def afterTime? (s : List Char) : Option (List Char) := do
  let (_, r) ← bounded? 2 0 60 (← after? ':' (← afterMinutes? s))
  match r with
  | '.' :: p => if (p.takeWhile isDigit).isEmpty then none else some (p.dropWhile isDigit)
  | r => some r

/-- What follows the distance from universal time, if it is given. -/
def afterOffset? : List Char → Option (List Char)
  | [] => some []
  | c :: s =>
    if c = 'Z' || c = 'z' then some s
    else if c = '+' || c = '-' then afterMinutes? s
    else some (c :: s)

/-- What follows a date and perhaps a time of that day. -/
def afterDay? (s : List Char) : Option (List Char) := do
  let r ← afterDate? s
  match r with
  | [] => some []
  | c :: t =>
    if c = 'T' || c = 't' then afterOffset? (← afterTime? t)
    else if c = ' ' then
      match afterTime? t with
      | some t => afterOffset? t
      | none => some (c :: t)
    else some (c :: t)

/-- A date, a time, or both. -/
def dateTime? (s : List Char) : Option (Value × List Char) := do
  let r ← afterDay? s <|> afterTime? s
  some (.dateTime (String.ofList (s.take (s.length - r.length))), r)

end ReportTemplate.Toml
