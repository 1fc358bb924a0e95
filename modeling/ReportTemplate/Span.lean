import ReportTemplate.Text.Utf8

/-!
# ReportTemplate.Span — places in a source

A span is a half-open range of byte offsets.  Lines are counted from one and end at a line feed.
-/

namespace ReportTemplate

/-- The bytes from `start` up to `stop`. -/
structure Span where
  start : Nat
  stop : Nat
deriving DecidableEq, Repr, Inhabited

/-- The lines of a source: the offset at which each begins. -/
structure LineIndex where
  starts : List Nat
deriving DecidableEq, Repr

namespace LineIndex

/-- The offsets behind the line feeds of a text that begins at `offset`. -/
def startsFrom (offset : Nat) : List Char → List Nat
  | [] => []
  | c :: s =>
    let next := offset + c.utf8Size
    if c = '\n' then next :: startsFrom next s else startsFrom next s

def ofSource (source : List Char) : LineIndex := ⟨0 :: startsFrom 0 source⟩

/-- The line that holds an offset: how many lines begin at or before it. -/
def line (index : LineIndex) (offset : Nat) : Nat := index.starts.countP (· ≤ offset)

end LineIndex

end ReportTemplate
