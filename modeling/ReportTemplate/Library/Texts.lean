import ReportTemplate.Library.Argument
import ReportTemplate.Number.Fixed
import ReportTemplate.Text.Blank
import ReportTemplate.Text.Case
import ReportTemplate.Text.Search

/-!
# ReportTemplate.Library.Texts — functions on texts
-/

namespace ReportTemplate.Library.Texts

/-- A function on the characters of a string. -/
def onText (f : List Char → List Char) (v : Value) : Except Refusal Value := do
  let s ← expectStr v
  pure (.str (String.ofList (f s.toList)))

def upper : Value → Except Refusal Value := onText Text.upper

def lower : Value → Except Refusal Value := onText Text.lower

def trim : Value → Except Refusal Value := onText Text.trim

def startsWith (v first : Value) : Except Refusal Value := do
  let s ← expectStr v
  let p ← expectStr first
  pure (.bool (Text.startsWith p.toList s.toList))

/-- The first text with the third in place of every occurrence of the second. -/
def replace (v wanted instead : Value) : Except Refusal Value := do
  let s ← expectStr v
  let a ← expectStr wanted
  let b ← expectStr instead
  pure (.str (String.ofList (Text.replace s.toList a.toList b.toList)))

def split (v separator : Value) : Except Refusal Value := do
  let s ← expectStr v
  let a ← expectStr separator
  if a.isEmpty then throw .emptySeparator
  else pure (.list ((Text.split s.toList a.toList).map fun piece => .str (String.ofList piece)))

/-- The texts of the items with a separator between them. -/
def join (v separator : Value) : Except Refusal Value := do
  let items ← expectList v
  let s ← expectStr separator
  pure (.str (s.intercalate (items.map Value.text)))

/-- The text a number of times over. -/
def repeated (v count : Value) : Except Refusal Value := do
  let s ← expectStr v
  let n ← expectWidth count
  let _ ← checkSize "repeated text" maxTextSize (s.utf8ByteSize * n)
  pure (.str (if s.isEmpty then "" else Nat.repeat (· ++ s) n ""))

/-- A width in characters. -/
def padding (width : Value) : Except Refusal Nat := do
  let n ← expectWidth width
  checkSize "padding width" maxTextSize n

/-- Blanks that bring a text to a width. -/
def blanks (text : String) (width : Nat) : String := "".pushn ' ' (width - text.length)

def padLeft (v width : Value) : Except Refusal Value := do
  let n ← padding width
  pure (.str (blanks v.text n ++ v.text))

def padRight (v width : Value) : Except Refusal Value := do
  let n ← padding width
  pure (.str (v.text ++ blanks v.text n))

/-- A number with a fixed number of places. -/
def formatNumber (v places : Value) : Except Refusal Value := do
  let x ← expectNumber v
  let n ← expectWidth places
  let n ← checkSize "precision" maxPlaces n
  pure (.str (x.fixed n))

end ReportTemplate.Library.Texts
