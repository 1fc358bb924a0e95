/-!
# ReportTemplate.Text.Ranges — classes of characters as ranges of code points
-/

namespace ReportTemplate.Text

/-- The code point lies in one of the closed ranges. -/
def inRanges (rs : List (Nat × Nat)) (n : Nat) : Bool := rs.any fun r => r.1 ≤ n && n ≤ r.2

end ReportTemplate.Text
