import ReportTemplate.Library
import ReportTemplate.Library.Collections
import ReportTemplate.Library.Core
import ReportTemplate.Library.Texts

/-!
# ReportTemplate.Library.Standard — the standard catalog

Two anchor libraries name what every template can use.
-/

namespace ReportTemplate

namespace Library

/-- The anchor for functions and plain types. -/
def playgroundAnchor : String := "playground"

/-- The anchor for the document and the log. -/
def templateAnchor : String := "template"

def playground : Library := { name := playgroundAnchor, references := ["core", "text", "collections"] }

def template : Library := { name := templateAnchor, references := ["document", "logging", "core"] }

def core : Library where
  name := "core"
  types := ["int", "float", "string", "bool", "list", "any"]
  functions := [
    .unary "len" Core.len, .unary "str" Core.str, .unary "int" Core.int, .unary "float" Core.float,
    .binary "contains" Core.contains, .binary "min" Core.min, .binary "max" Core.max,
    .unary "abs" Core.abs, .unary "fail" Core.fail]

def text : Library where
  name := "text"
  references := ["core"]
  functions := [
    .unary "upper" Texts.upper, .unary "lower" Texts.lower, .unary "trim" Texts.trim,
    .binary "starts_with" Texts.startsWith, .ternary "replace" Texts.replace,
    .binary "split" Texts.split, .binary "join" Texts.join, .binary "repeat" Texts.repeated,
    .binary "pad_left" Texts.padLeft, .binary "pad_right" Texts.padRight,
    .binary "format_number" Texts.formatNumber]

def collections : Library where
  name := "collections"
  references := ["core"]
  functions := [
    .binary "push" Collections.push, .unary "first" Collections.first,
    .unary "last" Collections.last, .unary "sum" Collections.sum,
    .unary "reverse" Collections.reverse, .unary "sort" Collections.sort,
    .binary "range" Collections.range]

/-- A heading has a level and a text. -/
def headingMethod : DocumentMethod :=
  ⟨"heading", 2, fun
    | [level, text] => do
      let level ← expectInt level
      pure (.heading level.toInt text.text)
    | _ => .error .argumentCount⟩

def paragraphMethod : DocumentMethod :=
  ⟨"paragraph", 1, fun
    | [text] => .ok (.paragraph text.text)
    | _ => .error .argumentCount⟩

/-- A row has a list of cells. -/
def rowMethod : DocumentMethod :=
  ⟨"row", 1, fun
    | [cells] => do
      let cells ← expectList cells
      pure (.row (cells.map Value.text))
    | _ => .error .argumentCount⟩

def pageBreakMethod : DocumentMethod :=
  ⟨"page_break", 0, fun
    | [] => .ok .pageBreak
    | _ => .error .argumentCount⟩

def document : Library where
  name := "document"
  references := ["core"]
  types := ["Document"]
  documentMethods := [headingMethod, paragraphMethod, rowMethod, pageBreakMethod]

def logging : Library where
  name := "logging"
  references := ["core"]
  types := ["fn"]

end Library

namespace Catalog

/-- The libraries that come with the language. -/
def standard : Catalog :=
  ⟨[.playground, .template, .core, .text, .collections, .document, .logging]⟩

/-- The libraries that the two standard anchors make visible. -/
def references (c : Catalog) : Except ReferenceError ReferenceSet :=
  ReferenceSet.resolve c [Library.playgroundAnchor, Library.templateAnchor]

end Catalog

end ReportTemplate
