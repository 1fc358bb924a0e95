/-!
# ReportTemplate.Document — the document a template fills

A document is a list of blocks and only grows.  Its text has one line for each block: headings with
their marks, rows with bars, a page break as a form feed.
-/

namespace ReportTemplate

inductive Block where
  | heading (level : Int) (text : String)
  | paragraph (text : String)
  | row (cells : List String)
  | pageBreak
deriving DecidableEq, Repr

namespace Block

/-- The number of marks in front of a heading: its level, brought between one and six. -/
def marks (level : Int) : Nat := (max 1 (min 6 level)).toNat

/-- The block as a line, without its end. -/
def line : Block → String
  | heading level text => "".pushn '#' (marks level) ++ " " ++ text
  | paragraph text => text
  | row cells => "| " ++ " | ".intercalate cells ++ " |"
  | pageBreak => "\x0c"

end Block

structure Document where
  blocks : Array Block := #[]
deriving DecidableEq, Repr

namespace Document

def isEmpty (d : Document) : Bool := d.blocks.isEmpty

/-- The document with one block more. -/
def add (d : Document) (b : Block) : Document := ⟨d.blocks.push b⟩

/-- The text of the document. -/
def text (d : Document) : String := d.blocks.foldl (fun s b => s ++ b.line ++ "\n") ""

end Document

end ReportTemplate
