import ReportTemplate.Proofs.Token.Literals

/-!
# ReportTemplate.Proofs.Token.Quoted — escaped text reads back

The log call of a template is recorded with the text of its argument, escaped and in quotes.  The lexer
undoes that: it reads the text again as it was, whatever stands behind the closing quote, and the
tokens of what stands there only move.
-/

namespace ReportTemplate

/-- The bytes that a span covers once `n` bytes stand in front of the source. -/
def Span.shift (n : Nat) (s : Span) : Span := ⟨n + s.start, n + s.stop⟩

/-- A token once `n` bytes stand in front of the source. -/
def Located.shift (n : Nat) (t : Located) : Located := ⟨t.token, t.span.shift n⟩

namespace Lexer

open Text (byteSize)
open LogCall (escape)

theorem locate_shift (n off : Nat) (ps : List Piece) :
    locate (n + off) ps = (locate off ps).map (Located.shift n) := by
  induction ps generalizing off with
  | nil => rfl
  | cons p ps ih =>
    have htail := ih (off + byteSize p.text)
    rw [← Nat.add_assoc] at htail
    cases hp : p.lexeme with
    | blank => simpa only [locate, hp] using htail
    | comment => simpa only [locate, hp] using htail
    | token t =>
      simp only [locate, hp, htail, List.map_cons, Located.shift, Span.shift]
      rw [Nat.add_assoc]

/-- The tokens of a text behind `n` bytes are those of the text alone, moved. -/
theorem locate_pieces (n : Nat) (source : List Char) :
    locate n (pieces source) = (lex source).map (Located.shift n) :=
  locate_shift n 0 (pieces source)

/-- A text as a template writes it: escaped, and in quotes. -/
def quoted (text : List Char) : List Char := '"' :: (escape text ++ ['"'])

/-- **Escaping is undone by the lexer**: a quoted text is one string token that covers the quotes and
what is between them, and behind it stand the tokens of the rest, moved by the length of the quoted
text. -/
theorem lex_quoted (text rest : List Char) :
    lex (quoted text ++ rest) =
      ⟨.string (String.ofList text), ⟨0, byteSize (quoted text)⟩⟩ ::
        (lex rest).map (Located.shift (byteSize (quoted text))) := by
  have hsource : quoted text ++ rest = '"' :: (escape text ++ '"' :: rest) := by
    simp [quoted]
  have hpieces : pieces (quoted text ++ rest) =
      ⟨.token (.string (String.ofList text)), quoted text⟩ :: pieces rest := by
    rw [hsource, pieces_quoted]
    rfl
  unfold lex
  rw [hpieces, locate_token, Nat.zero_add, locate_pieces]
  rfl

/-- A backslash and a quote at the end of the text do not move the closing quote. -/
example : lex (quoted ['a', '\\', '"'] ++ ['"']) =
    [⟨.string "a\\\"", ⟨0, 7⟩⟩, ⟨.unknown "\"", ⟨7, 8⟩⟩] := by decide

end Lexer

end ReportTemplate
