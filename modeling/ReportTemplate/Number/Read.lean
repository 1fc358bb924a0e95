import ReportTemplate.Number.Binary64

/-!
# ReportTemplate.Number.Read — numbers read from text

Whole numbers are an optional sign and decimal digits.  Floats are an optional sign and then `inf`,
`infinity` or `nan` in any case, or digits with an optional point and exponent, at least one digit
standing before or behind the point.  Nothing else is a number: no blanks, underscores or other bases.
-/

namespace ReportTemplate.Number

/-- One of the digits `0` to `9`. -/
def isDigit (c : Char) : Bool := '0' ≤ c && c ≤ '9'

/-- The number that a list of digits denotes in base ten. -/
def digitsValue (ds : List Char) : Nat :=
  ds.foldl (fun n c => n * 10 + (c.toNat - '0'.toNat)) 0

/-- The digits from the first on that is not zero. -/
def significant (ds : List Char) : List Char := ds.dropWhile (· = '0')

/-- At least one digit and nothing else. -/
def isNumeral (ds : List Char) : Bool := !ds.isEmpty && ds.all isDigit

/-- An optional sign in front of a number: whether it is `-`, and what follows it. -/
def splitSign : List Char → Bool × List Char
  | '-' :: r => (true, r)
  | '+' :: r => (false, r)
  | r => (false, r)

/-! ### Whole numbers -/

/-- The most digits that a number of 64 bits can have. -/
def wordDigits : Nat := 20

/-- The number that digits denote, unless it has too many digits for 64 bits. -/
def readNat? (ds : List Char) : Option Nat :=
  if isNumeral ds && (significant ds).length ≤ wordDigits then some (digitsValue (significant ds))
  else none

/-- A whole number with an optional sign. -/
def readInt? (s : List Char) : Option Int :=
  let (negative, ds) := splitSign s
  (readNat? ds).map fun n => if negative then -(n : Int) else n

/-! ### Floats -/

/-- How many digits of a decimal can decide which float is nearest to it.  A float, and the middle
between two floats, has fewer than eight hundred. -/
def decisiveDigits : Nat := 800

/-- The float nearest to the digits times a power of ten.  Behind the decisive digits one more
stands for all that are left: a one, unless they are zeros.  So the decimal stays on its side of every
float and of every middle between two. -/
def nearestFloat (negative : Bool) (ds : List Char) (e : Int) : Binary64 :=
  let ds := significant ds
  match ds.drop decisiveDigits with
  | [] => Binary64.ofDecimal negative (digitsValue ds) e
  | rest =>
    let mark := if rest.all (· = '0') then '0' else '1'
    Binary64.ofDecimal negative (digitsValue (ds.take decisiveDigits ++ [mark]))
      (e + (rest.length - 1 : Nat))

/-- The number from which on an exponent takes no more digits. -/
def fullExponent : Nat := 65536

/-- The exponent that digits denote; the digits behind those that fill it do not count. -/
def exponentValue (ds : List Char) : Nat :=
  ds.foldl (fun n c => if n < fullExponent then n * 10 + (c.toNat - '0'.toNat) else n) 0

/-- The lower-case form of `A` to `Z`; other characters stand for themselves. -/
def lowerAscii (c : Char) : Char :=
  if 'A' ≤ c ∧ c ≤ 'Z' then Char.ofNat (c.toNat + 32) else c

/-- The exponent behind the digits of a float: nothing, or `e`, an optional sign and digits. -/
def readExponent? : List Char → Option Int
  | [] => some 0
  | c :: r =>
    let (negative, ds) := splitSign r
    if lowerAscii c = 'e' && isNumeral ds then
      some (if negative then -(exponentValue ds : Int) else exponentValue ds)
    else none

/-- Digits with an optional point, and an optional exponent. -/
def readPositional? (negative : Bool) (s : List Char) : Option Binary64 :=
  let whole := s.takeWhile isDigit
  let r := s.dropWhile isDigit
  let (places, r) := match r with
    | '.' :: r => (r.takeWhile isDigit, r.dropWhile isDigit)
    | r => ([], r)
  if whole.isEmpty && places.isEmpty then none
  else
    (readExponent? r).map fun e => nearestFloat negative (whole ++ places) (e - places.length)

/-- A float with an optional sign. -/
def readFloat? (s : List Char) : Option Binary64 :=
  let (negative, r) := splitSign s
  let word := String.ofList (r.map lowerAscii)
  if word = "inf" ∨ word = "infinity" then
    some (if negative then Binary64.infinity.neg else Binary64.infinity)
  else if word = "nan" then some (if negative then Binary64.nan.neg else Binary64.nan)
  else readPositional? negative r

end ReportTemplate.Number
