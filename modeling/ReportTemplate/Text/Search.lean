/-!
# ReportTemplate.Text.Search — one text inside another

Occurrences are found from the left and do not overlap.  A split at a separator gives one piece more
than there are occurrences, and putting a text in place of each occurrence is the split joined with
that text.
-/

namespace ReportTemplate.Text

/-- The text begins with `p`. -/
def startsWith (p s : List Char) : Bool := p.isPrefixOf s

/-- The pieces between the occurrences of `a`, for `a` other than empty.  `piece` is the open piece
in reverse and `done` the finished ones in reverse; `skip` counts the characters of an occurrence
that are still to be passed over. -/
def splitFrom (a : List Char) (done : List (List Char)) (piece : List Char) (skip : Nat) :
    List Char → List (List Char)
  | [] => (piece.reverse :: done).reverse
  | c :: s =>
    if 0 < skip then splitFrom a done piece (skip - 1) s
    else if startsWith a (c :: s) then splitFrom a (piece.reverse :: done) [] (a.length - 1) s
    else splitFrom a done (c :: piece) 0 s

/-- The pieces of a text between the occurrences of a separator other than the empty text. -/
def split (s a : List Char) : List (List Char) := splitFrom a [] [] 0 s

/-- The text holds `a` somewhere. -/
def contains (s a : List Char) : Bool :=
  match s with
  | [] => a.isEmpty
  | c :: r => if startsWith a (c :: r) then true else contains r a

/-- The text with `b` in place of every occurrence of `a`.  The empty text occurs around every
character. -/
def replace (s a b : List Char) : List Char :=
  if a.isEmpty then b ++ s.flatMap fun c => c :: b
  else b.intercalate (split s a)

end ReportTemplate.Text
