import ReportTemplate.Proofs.Grammar.Accepted
import ReportTemplate.Proofs.Grammar.Locality

/-!
# ReportTemplate.Proofs.Grammar.Furthest — where a source that is no file is reported

The last message about a source that is no sentence of the grammar stands at the first token that no
sentence has behind the tokens in front of it, and names only what could stand there.
-/

namespace ReportTemplate.Syntax

open ReportTemplate.Syntax.Parser

/-- What a message at a place expects can stand behind the tokens in front of it: a token, any of the
constructs with a name, or the end of the input. -/
def Fits (before : List Located) (expected : String) : Prop :=
  (∃ m : Mark, expected = m.token.describe ∧
      ∀ t : Located, t.token = m.token → Grammar.file.Viable (before ++ [t])) ∨
    (∃ l : Label, expected = l.text ∧ (∃ u, l.Names u) ∧
      ∀ u, l.Names u → Grammar.file.Viable (before ++ u)) ∨
    (expected = "end of input" ∧ ∃ f, Derives Grammar.file before f)

theorem Label.exists_names (l : Label) : ∃ u, l.Names u := by
  cases l with
  | expression =>
    have hvalue : Denotes (Token.anywhere (.keyword .nullKw)).token .null := .nullKw
    exact ⟨_, _, .left (Derives.value hvalue).spanned.map⟩
  | type =>
    obtain ⟨name, hname⟩ := Grammar.sentence_ident "a"
    exact ⟨_, _, .right hname.map⟩
  | statement =>
    obtain ⟨u, s, hu⟩ := Grammar.returnStmt.exists_sentence rfl
    exact ⟨u, s, .right (.right (.right (.right (.left hu))))⟩

theorem fits_of_wanted {before : List Located} {wanted : Wanted}
    (h : ∀ y, wanted.Meets y → Grammar.file.Viable (before ++ y)) : Fits before wanted.text := by
  cases wanted with
  | mark m => exact .inl ⟨m, rfl, fun t ht => h [t] ⟨t, rfl, ht⟩⟩
  | label l => exact .inr (.inl ⟨l, rfl, l.exists_names, h⟩)

/-- A failed test of a source lies behind tokens of a file, and what was wanted there fits. -/
def ReportedAt (tokens : List Located) (f : Failure) : Prop :=
  f.index ≤ tokens.length ∧ Grammar.file.Viable (tokens.take f.index) ∧
    ∀ w ∈ f.wanted, Fits (tokens.take f.index) w

theorem reportedAt_of_explains {tokens : List Located} {e : Option Failure}
    (h : (Phrase.many (.rule .classDecl)).Explains ⟨0, 0, tokens⟩ e) : ∀ f ∈ e, ReportedAt tokens f := by
  intro f hf
  obtain ⟨x, s, hrest, hindex, hviable, hwanted⟩ := h f hf
  have htokens : tokens = x ++ s := hrest
  have hlength : f.index = x.length := hindex.trans (Nat.zero_add _)
  have htake : tokens.take f.index = x := by rw [hlength, htokens, List.take_left]
  unfold ReportedAt
  rw [htake]
  refine ⟨by rw [hlength, htokens, List.length_append]; omega, hviable.map, fun w hw => ?_⟩
  obtain ⟨wanted, rfl, hmeets⟩ := hwanted w hw
  exact fits_of_wanted fun y hy => (hmeets y hy).map

/-- What is reported at the furthest of two places. -/
theorem reportedAt_merge {tokens : List Located} {e e' : Option Failure}
    (h : ∀ f ∈ e, ReportedAt tokens f) (h' : ∀ f ∈ e', ReportedAt tokens f) :
    ∀ f ∈ Failure.merge e e', ReportedAt tokens f := by
  rcases e with _ | ⟨i, as⟩
  · exact h'
  rcases e' with _ | ⟨j, bs⟩
  · exact h
  rcases Nat.lt_trichotomy i j with hij | rfl | hij
  · rwa [Failure.merge_of_lt hij]
  · rw [Failure.merge_of_eq]
    intro f hf
    obtain rfl := Option.some.inj hf
    obtain ⟨hle, hviable, hwanted⟩ := h _ rfl
    refine ⟨hle, hviable, fun w hw => ?_⟩
    rcases List.mem_append.mp hw with hw | hw
    · exact hwanted w hw
    · exact (h' _ rfl).2.2 w (List.mem_filter.mp hw).1
  · rwa [Failure.merge_of_gt hij]

/-- No file begins with more tokens than the run of the parser looked at. -/
theorem not_viable_of_within {tokens u v : List Located} {classes : List Class} {last : Nat}
    (hread : result (many classDecl) ⟨0, 0, tokens⟩ = some (classes, Cursor.past ⟨0, 0, tokens⟩ u v))
    (hw : Within last (many classDecl ⟨0, 0, tokens⟩)) (hlast : last < tokens.length) :
    ¬ Grammar.file.Viable (tokens.take (last + 1)) := by
  rintro ⟨z, f, hf⟩
  have halike : Cursor.Alike last ⟨0, 0, tokens⟩ ⟨0, 0, tokens.take (last + 1) ++ z⟩ := by
    refine ⟨rfl, ?_⟩
    show tokens.take (last + 1) = (tokens.take (last + 1) ++ z).take (last + 1)
    rw [List.take_append_of_le_length, List.take_take, Nat.min_self]
    rw [List.length_take]
    omega
  have hlike := (Phrase.many (.rule .classDecl)).stopsLike rfl trivial halike hw
  replace hlike : StopsLike last (result (many classDecl) _) (result (many classDecl) _) := hlike
  rw [hread, result_of_derives hf] at hlike
  cases hlike with
  | some hstop =>
    have hindex : (0 + u.length : Nat) = 0 + (tokens.take (last + 1) ++ z).length := hstop.index
    have hstop : 0 + u.length ≤ last := hw.stop classes _ hread
    rw [List.length_append, List.length_take] at hindex
    omega

/-- A message about the token at a place, or about the end of the input behind all tokens. -/
def TellsUnexpected (source : List Char) (i : Nat) (d : Diagnostic) : Prop :=
  d.code = .unexpectedToken ∧
    ((∃ t, (lex source)[i]? = some t ∧ d.message = "unexpected " ++ t.token.describe ∧ d.span = t.span) ∨
      (i = (lex source).length ∧ d.message = "unexpected end of input" ∧
        d.span.start = Text.byteSize source))

theorem tellsUnexpected {source : List Char} {f : Failure} (h : f.index ≤ (lex source).length) :
    TellsUnexpected source f.index (unexpected (Text.byteSize source) (lex source) f) := by
  unfold TellsUnexpected unexpected
  cases ht : (lex source)[f.index]? with
  | some t => exact ⟨rfl, .inl ⟨t, rfl, rfl, rfl⟩⟩
  | none =>
    have hlength := List.getElem?_eq_none_iff.mp ht
    exact ⟨rfl, .inr ⟨Nat.le_antisymm h hlength, rfl, rfl⟩⟩

theorem unexpected_expected (size : Nat) (tokens : List Located) (f : Failure) :
    (unexpected size tokens f).expected = f.wanted := by
  unfold unexpected
  split <;> rfl

/-- A source that is no file is reported at the first token that cannot stand behind those in front of it,
or at the end of the input if all of them are the beginning of a file. -/
theorem parse_furthest (source : List Char) (h : ∀ f, ¬ Derives Grammar.file (lex source) f) :
    ∃ earlier d i, parse source = .error (earlier ++ [d]) ∧ TellsUnexpected source i d ∧
      Grammar.file.Viable ((lex source).take i) ∧
      (i < (lex source).length → ¬ Grammar.file.Viable ((lex source).take (i + 1))) ∧
      ∀ w ∈ d.expected, Fits ((lex source).take i) w := by
  rcases parseTokens_cases (Text.byteSize source) (lex source) with ⟨f, hf, -⟩ |
      ⟨-, classes, u, v, f, htokens, hu, hread, hmerge, hparse⟩
  · exact absurd hf (h f)
  have htests := reportedAt_of_explains
    ((Phrase.many (.rule .classDecl)).found rfl trivial ⟨0, 0, lex source⟩).explained
  have hend : ∀ g ∈ some (Failure.mk u.length ["end of input"]), ReportedAt (lex source) g := by
    intro g hg
    obtain rfl := Option.some.inj hg
    have htake : (lex source).take u.length = u := by rw [htokens, List.take_left]
    unfold ReportedAt
    rw [htake]
    refine ⟨?_, .of_derives hu, fun w hw => .inr (.inr ⟨List.mem_singleton.mp hw, _, hu⟩)⟩
    rw [htokens, List.length_append]
    exact Nat.le_add_right _ _
  obtain ⟨hle, hviable, hfits⟩ := reportedAt_merge htests hend f hmerge
  refine ⟨outOfRanges u, _, f.index, hparse, tellsUnexpected hle, hviable, fun hlast => ?_, ?_⟩
  · refine not_viable_of_within hread ?_ hlast
    have hfurthest : ∀ g ∈ Failure.merge (many classDecl ⟨0, 0, lex source⟩).2
        (some ⟨u.length, ["end of input"]⟩), g.index ≤ f.index := fun g hg =>
      Nat.le_of_eq (congrArg Failure.index (Option.some.inj (hg.symm.trans hmerge)))
    have hbounds := Failure.index_le_of_merge hfurthest
    refine ⟨hbounds.1, fun a c hr => ?_⟩
    obtain ⟨rfl, rfl⟩ := Prod.mk.inj (Option.some.inj (hread.symm.trans hr))
    exact Nat.le_trans (Nat.le_of_eq (Nat.zero_add _)) (hbounds.2 _ rfl)
  · rw [unexpected_expected]
    exact hfits

/-- A method that returns a sum without its right operand. -/
def missingOperand : String := "class T \x7b static fn f() \x7b return 1 + ; \x7d \x7d"

/-- The parser stops in front of the class. -/
theorem not_derives_missingOperand (f : File) : ¬ Derives Grammar.file (lex missingOperand.toList) f := by
  intro hf
  have hstop : (result (many classDecl) ⟨0, 0, lex missingOperand.toList⟩).map
      (fun r => r.2.rest.isEmpty) = some false := by
    unfold missingOperand
    rw [String.toList_ofList]
    decide
  rw [result_of_derives hf] at hstop
  cases hstop

theorem parse_furthest_missingOperand :
    (∀ f, ¬ Derives Grammar.file (lex missingOperand.toList) f) ∧
      ∃ earlier d i, parse missingOperand.toList = .error (earlier ++ [d]) ∧
        TellsUnexpected missingOperand.toList i d ∧
        Grammar.file.Viable ((lex missingOperand.toList).take i) ∧
        (i < (lex missingOperand.toList).length →
          ¬ Grammar.file.Viable ((lex missingOperand.toList).take (i + 1))) ∧
        ∀ w ∈ d.expected, Fits ((lex missingOperand.toList).take i) w :=
  ⟨not_derives_missingOperand, parse_furthest _ not_derives_missingOperand⟩

end ReportTemplate.Syntax
