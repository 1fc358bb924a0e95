import ReportTemplate.Text.Case.Table
import ReportTemplate.Text.Ranges

/-!
# ReportTemplate.Text.Case — upper and lower case of a text

Full mappings: one character may become several (`ß` is `SS` in upper case).  A capital sigma at the
end of a word becomes `ς`: letters stand before it and none behind it, characters such as the
apostrophe being passed over on both sides.
-/

namespace ReportTemplate.Text

namespace Case

/-- The single-character mapping that a table of runs gives, if one of them holds the character. -/
def mapped? (runs : List Run) (n : Nat) : Option Nat :=
  (runs.find? fun r => r.first ≤ n && n ≤ r.last && (n - r.first) % r.step == 0).map fun r =>
    ((n : Int) + r.shift).toNat

/-- A mapping from the tables of several and of single characters, in this order. -/
def expand (several : List (Nat × List Nat)) (runs : List Run) (c : Char) : List Char :=
  match several.lookup c.toNat with
  | some ns => ns.map Char.ofNat
  | none =>
    match mapped? runs c.toNat with
    | some n => [Char.ofNat n]
    | none => [c]

/-- The upper-case form of a character. -/
def upperOf (c : Char) : List Char :=
  if c.toNat < 128 then [c.toUpper] else expand upperExpansions upperRuns c

/-- The lower-case form of a character that stands alone. -/
def lowerOf (c : Char) : List Char :=
  if c.toNat < 128 then [c.toLower] else expand lowerExpansions lowerRuns c

/-- The first character that is not passed over has a case. -/
def letterFirst (s : List Char) : Bool :=
  match s.dropWhile fun c => inRanges ignorableRanges c.toNat with
  | [] => false
  | c :: _ => inRanges casedRanges c.toNat

/-- Lower case of the rest of a text, given what stands before it in reverse; the result is gathered
in reverse as well. -/
def lowerFrom (before : List Char) (done : List Char) : List Char → List Char
  | [] => done.reverse
  | c :: r =>
    let form :=
      if c = 'Σ' then (if letterFirst before && !letterFirst r then ['ς'] else ['σ'])
      else lowerOf c
    lowerFrom (c :: before) (form.reverseAux done) r

end Case

/-- The text in upper case. -/
def upper (s : List Char) : List Char := s.flatMap Case.upperOf

/-- The text in lower case. -/
def lower (s : List Char) : List Char := Case.lowerFrom [] [] s

end ReportTemplate.Text
