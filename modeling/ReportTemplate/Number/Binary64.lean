/-!
# ReportTemplate.Number.Binary64 — 64-bit floats by their bits

A float is kept as its bit pattern, so that two NaNs of different sign stay apart: sorting sees the
sign.  A finite float is `± m * 2 ^ q`, and whatever has to be exact (remainder, truncation, text)
is computed from `m` and `q` on whole numbers.
-/

namespace ReportTemplate.Number

/-- A 64-bit float: sign, eleven bits of exponent, fifty-two bits of fraction. -/
structure Binary64 where
  bits : UInt64
deriving DecidableEq, Repr, Inhabited

/-- The size of a finite float, `m * 2 ^ q`. -/
structure Magnitude where
  m : Nat
  q : Int
  /-- The gap to the float below is half the gap to the float above. -/
  narrowBelow : Bool
deriving DecidableEq, Repr

namespace Binary64

/-- The number as the machine computes with it. -/
def toFloat (x : Binary64) : Float := Float.ofBits x.bits

/-- The sign bit, also that of a zero or a NaN. -/
def isNegative (x : Binary64) : Bool := x.bits >>> 63 == 1

/-- The eleven bits of the exponent. -/
def exponentBits (x : Binary64) : Nat := ((x.bits >>> 52) &&& 0x7FF).toNat

/-- The fifty-two bits of the fraction. -/
def fractionBits (x : Binary64) : Nat := (x.bits &&& 0xFFFFFFFFFFFFF).toNat

def isNaN (x : Binary64) : Bool := x.exponentBits == 0x7FF && x.fractionBits != 0

def isFinite (x : Binary64) : Bool := x.exponentBits != 0x7FF

/-- The NaN that reading `nan` gives. -/
def nan : Binary64 := ⟨0x7FF8000000000000⟩

/-- The NaN of an operation that has no answer, such as zero divided by zero: its sign bit is set. -/
def invalid : Binary64 := ⟨0xFFF8000000000000⟩

def infinity : Binary64 := ⟨0x7FF0000000000000⟩

def zero : Binary64 := ⟨0⟩

/-- Flips the sign bit, of a NaN as well. -/
def neg (x : Binary64) : Binary64 := ⟨x.bits ^^^ 0x8000000000000000⟩

/-- Clears the sign bit. -/
def abs (x : Binary64) : Binary64 := ⟨x.bits &&& 0x7FFFFFFFFFFFFFFF⟩

/-- The size of a finite float; infinities and NaNs have none, so they are asked for first. -/
def magnitude (x : Binary64) : Magnitude :=
  if x.exponentBits == 0 then ⟨x.fractionBits, -1074, false⟩
  else
    ⟨Nat.pow 2 52 + x.fractionBits, (x.exponentBits : Int) - 1075,
      x.fractionBits == 0 && x.exponentBits > 1⟩

/-- The float of size `n * 2 ^ q`, for `n < 2 ^ 53` and `-1074 ≤ q`: the fraction is moved up as far
as the exponent allows. -/
def ofMagnitude (negative : Bool) (n : Nat) (q : Int) : Binary64 :=
  let size :=
    if n = 0 then zero
    else
      let up := min (52 - n.log2) (q + 1074).toNat
      let m := n * Nat.pow 2 up
      if m < Nat.pow 2 52 then ⟨m.toUInt64⟩
      else ⟨((q - up + 1075).toNat * Nat.pow 2 52 + (m - Nat.pow 2 52)).toUInt64⟩
  if negative then size.neg else size

/-- The answer of an operation on two floats.  A NaN operand is handed on, the first one first; an
operation without an answer gives `invalid`. -/
def combine (op : Float → Float → Float) (x y : Binary64) : Binary64 :=
  if x.isNaN then x
  else if y.isNaN then y
  else
    let r := op x.toFloat y.toFloat
    if r.isNaN then invalid else ⟨r.toBits⟩

def add : Binary64 → Binary64 → Binary64 := combine (· + ·)

def sub : Binary64 → Binary64 → Binary64 := combine (· - ·)

def mul : Binary64 → Binary64 → Binary64 := combine (· * ·)

def div : Binary64 → Binary64 → Binary64 := combine (· / ·)

/-- The remainder of truncating division, exact, with the sign of the dividend. -/
def rem (x y : Binary64) : Binary64 :=
  if x.isNaN then x
  else if y.isNaN then y
  else if !x.isFinite || y.abs = zero then invalid
  else if !y.isFinite then x
  else
    let a := x.magnitude
    let b := y.magnitude
    let q := min a.q b.q
    ofMagnitude x.isNegative ((a.m * Nat.pow 2 (a.q - q).toNat) % (b.m * Nat.pow 2 (b.q - q).toNat)) q

/-- Numeric equality: the two zeros are equal, a NaN equals nothing. -/
def equals (x y : Binary64) : Bool := x.toFloat == y.toFloat

/-- Numeric order; `none` when a NaN is compared. -/
def compare? (x y : Binary64) : Option Ordering :=
  if x.isNaN || y.isNaN then none
  else if x.equals y then some .eq
  else if x.toFloat < y.toFloat then some .lt
  else some .gt

/-- The place of a float in the total order: negative NaNs, negative numbers, `-0`, `0`, positive
numbers, positive NaNs. -/
def orderKey (x : Binary64) : Int :=
  if x.isNegative then -((x.abs.bits.toNat : Int) + 1) else x.bits.toNat

/-- The nearest float to a whole number, ties to even. -/
def ofInt (n : Int) : Binary64 :=
  let size : Binary64 := ⟨(Float.ofScientific n.natAbs false 0).toBits⟩
  if n < 0 then size.neg else size

/-- A finite float cut to its whole part. -/
def truncate (x : Binary64) : Int :=
  let s := x.magnitude
  let n := s.m * Nat.pow 2 s.q.toNat / Nat.pow 2 (-s.q).toNat
  if x.isNegative then -(n : Int) else n

/-- The float nearest to `± m * 10 ^ e`, ties to even.  Sizes far beyond either end of the range are
settled by their number of digits. -/
def ofDecimal (negative : Bool) (m : Nat) (e : Int) : Binary64 :=
  let digits : Int := (Nat.toDigits 10 m).length
  let size : Binary64 :=
    if m = 0 ∨ digits + e < -324 then zero
    else if 310 < digits + e then infinity
    else ⟨(Float.ofScientific m (e < 0) e.natAbs).toBits⟩
  if negative then size.neg else size

end Binary64

end ReportTemplate.Number
