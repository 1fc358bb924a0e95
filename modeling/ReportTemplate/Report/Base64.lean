/-!
# ReportTemplate.Report.Base64 — bytes as text

Three bytes become four characters of six bits each; a group that is not full is filled up with `=`.
-/

namespace ReportTemplate.Report.Base64

/-- The character of six bits. -/
def digit (n : Nat) : Char :=
  if n < 26 then Char.ofNat (n + 65)
  else if n < 52 then Char.ofNat (n + 71)
  else if n < 62 then Char.ofNat (n - 4)
  else if n = 62 then '+'
  else '/'

/-- Writes bytes behind what is written already, which is in reverse. -/
def encodeOn (done : List Char) : List UInt8 → List Char
  | [] => done.reverse
  | [a] =>
    let n := a.toNat
    ('=' :: '=' :: digit (n % 4 * 16) :: digit (n / 4) :: done).reverse
  | [a, b] =>
    let n := a.toNat * 256 + b.toNat
    ('=' :: digit (n % 16 * 4) :: digit (n / 16 % 64) :: digit (n / 1024) :: done).reverse
  | a :: b :: c :: bytes =>
    let n := (a.toNat * 256 + b.toNat) * 256 + c.toNat
    encodeOn (digit (n % 64) :: digit (n / 64 % 64) :: digit (n / 4096 % 64) :: digit (n / 262144)
      :: done) bytes

/-- The text of some bytes. -/
def encode (bytes : List UInt8) : String := String.ofList (encodeOn [] bytes)

end ReportTemplate.Report.Base64
