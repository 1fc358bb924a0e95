/-!
# ReportTemplate.Text.Utf8 — text measured in bytes

Places in a source and limits on texts count the bytes of the UTF-8 form; the logic works on lists
of characters.
-/

namespace ReportTemplate.Text

/-- Bytes of a text in UTF-8. -/
def byteSize : List Char → Nat
  | [] => 0
  | c :: s => c.utf8Size + byteSize s

@[simp] theorem byteSize_nil : byteSize [] = 0 := rfl

@[simp] theorem byteSize_cons (c : Char) (s : List Char) :
    byteSize (c :: s) = c.utf8Size + byteSize s := rfl

@[simp] theorem byteSize_append (s t : List Char) : byteSize (s ++ t) = byteSize s + byteSize t := by
  induction s with
  | nil => simp
  | cons c s ih => simp [ih, Nat.add_assoc]

end ReportTemplate.Text
