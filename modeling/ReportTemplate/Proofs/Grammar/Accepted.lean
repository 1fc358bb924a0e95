import Mathlib.Data.List.Forall2
import ReportTemplate.Proofs.Grammar.Completeness

/-!
# ReportTemplate.Proofs.Grammar.Accepted — which sources are read

A source is read exactly if its tokens are a sentence of the grammar without an unknown token, and the tree
is the one that the grammar gives.  A sentence with digits out of range is reported with one message for
each of them.
-/

namespace ReportTemplate.Syntax

open ReportTemplate.Syntax.Parser

variable {α : Type}

/-! ### Sources as sentences -/

/-- The tokens of a file are read to their end. -/
theorem result_of_derives {tokens : List Located} {f : File} (h : Derives Grammar.file tokens f) :
    result (many classDecl) ⟨0, 0, tokens⟩ = some (f.classes, Cursor.past ⟨0, 0, tokens⟩ tokens []) := by
  obtain ⟨classes, rfl, hclasses⟩ := h.forms
  have hends : (Phrase.many (.rule .classDecl)).Ends [] := Grammar.file_ends
  exact hclasses.reads rfl trivial ⟨0, 0, tokens⟩ [] (List.append_nil tokens).symm hends

theorem derives_of_result {tokens : List Located} {classes : List Class} {c : Cursor}
    (h : result (many classDecl) ⟨0, 0, tokens⟩ = some (classes, c)) :
    ∃ u v, tokens = u ++ v ∧ c = Cursor.past ⟨0, 0, tokens⟩ u v ∧ Derives Grammar.file u ⟨classes⟩ := by
  obtain ⟨u, v, hrest, rfl, hu⟩ :=
    ((Phrase.many (.rule .classDecl)).found rfl trivial ⟨0, 0, tokens⟩).sentence classes c h
  exact ⟨u, v, hrest, rfl, hu.map⟩

/-- A source is a file, or it is reported at the furthest failed test. -/
theorem parseTokens_cases (size : Nat) (tokens : List Located) :
    (∃ f, Derives Grammar.file tokens f ∧ parseTokens size tokens =
        if (outOfRanges tokens).isEmpty then .ok f else .error (outOfRanges tokens)) ∨
      (∀ f, ¬ Derives Grammar.file tokens f) ∧ ∃ classes u v f, tokens = u ++ v ∧
        Derives Grammar.file u ⟨classes⟩ ∧
        result (many classDecl) ⟨0, 0, tokens⟩ = some (classes, Cursor.past ⟨0, 0, tokens⟩ u v) ∧
        Failure.merge (many classDecl ⟨0, 0, tokens⟩).2 (some ⟨u.length, ["end of input"]⟩) = some f ∧
        parseTokens size tokens = .error (outOfRanges u ++ [unexpected size tokens f]) := by
  obtain ⟨classes, c, hread, hcases⟩ := exists_classes size tokens
  obtain ⟨u, v, htokens, rfl, hu⟩ := derives_of_result hread
  have hindex : (Cursor.past ⟨0, 0, tokens⟩ u v).index = u.length := Nat.zero_add _
  have htake : tokens.take (Cursor.past ⟨0, 0, tokens⟩ u v).index = u := by
    rw [hindex, htokens, List.take_left]
  rw [htake] at hcases
  rcases hcases with ⟨hend, hparse⟩ | ⟨f, hrest, hmerge, hparse⟩
  · obtain rfl : v = [] := hend
    rw [List.append_nil] at htokens
    subst htokens
    exact .inl ⟨⟨classes⟩, hu, hparse⟩
  · refine .inr ⟨fun g hg => ?_, classes, u, v, f, htokens, hu, hread, hindex ▸ hmerge, hparse⟩
    have hwhole := (result_of_derives hg).symm.trans hread
    have hv : [] = v := congrArg Cursor.rest (Prod.mk.inj (Option.some.inj hwhole)).2
    exact hrest hv.symm

/-! ### Unknown tokens -/

def Token.isUnknown : Token → Bool
  | .unknown _ => true
  | _ => false

/-- The only unknown tokens of a sentence are digits out of range. -/
theorem Derives.isOutOfRange {p : Phrase α} {u : List Located} {a : α} (h : Derives p u a) :
    ∀ t ∈ u, Token.isUnknown t.token = true → Token.isOutOfRange t.token = true := by
  induction h with
  | @fixed m t h =>
    refine List.forall_mem_singleton.mpr fun hunknown => ?_
    rw [h] at hunknown
    cases m <;> cases hunknown
  | @name t s h =>
    refine List.forall_mem_singleton.mpr fun hunknown => ?_
    rw [h] at hunknown
    cases hunknown
  | @value t l h =>
    refine List.forall_mem_singleton.mpr fun hunknown => ?_
    generalize t.token = token at h hunknown ⊢
    cases h with
    | oversized text digits => exact isOutOfRange_iff.mpr ⟨text, rfl, digits⟩
    | _ => cases hunknown
  | map _ ih => exact ih
  | seq _ _ ihl ihr => exact List.forall_mem_append.mpr ⟨ihl, ihr⟩
  | left _ ih => exact ih
  | right _ ih => exact ih
  | absent => exact nofun
  | present _ ih => exact ih
  | nil => exact nofun
  | cons _ _ ihl ihr => exact List.forall_mem_append.mpr ⟨ihl, ihr⟩
  | noItems => exact nofun
  | lastItem _ ih => exact ih
  | @item _ p u v t a as head comma tail ihl ihr =>
    refine List.forall_mem_append.mpr ⟨ihl, List.forall_mem_cons.mpr ⟨fun hunknown => ?_, ihr⟩⟩
    rw [comma] at hunknown
    cases hunknown
  | spanned _ ih => exact ih
  | labelled _ ih => exact ih
  | rule _ ih => exact ih

theorem isUnknown_of_isOutOfRange {t : Token} (h : Token.isOutOfRange t = true) :
    Token.isUnknown t = true := by
  obtain ⟨text, rfl, -⟩ := isOutOfRange_iff.mp h
  rfl

/-- The message that the digits of a token fit in no integer. -/
def TellsOutOfRange (t : Located) (d : Diagnostic) : Prop :=
  ∃ digits, t.token = .unknown digits ∧ (∀ c ∈ digits.toList, '0' ≤ c ∧ c ≤ '9') ∧
    d = ⟨.unexpectedToken, "integer literal " ++ digits ++ " is out of range", t.span, [], false⟩

/-- The messages about a sentence tell each of its unknown tokens once. -/
theorem tells_outOfRanges {u : List Located} (h : ∀ t ∈ u, Token.isUnknown t.token = true →
    Token.isOutOfRange t.token = true) :
    List.Forall₂ TellsOutOfRange (u.filter fun t => Token.isUnknown t.token) (outOfRanges u) := by
  have hfilter : (u.filter fun t => Token.isUnknown t.token) = u.filter fun t => Token.isOutOfRange t.token :=
    List.filter_congr fun t ht => Bool.eq_iff_iff.mpr ⟨h t ht, isUnknown_of_isOutOfRange⟩
  unfold outOfRanges
  rw [hfilter, List.forall₂_map_right_iff, List.forall₂_same]
  intro t ht
  obtain ⟨digits, hdigits, hall⟩ := isOutOfRange_iff.mp (List.mem_filter.mp ht).2
  refine ⟨digits, hdigits, hall, ?_⟩
  unfold outOfRange
  rw [hdigits]

theorem isUnknown_iff {t : Token} : Token.isUnknown t = true ↔ ∃ text, t = .unknown text := by
  cases t with
  | unknown text => exact ⟨fun _ => ⟨text, rfl⟩, fun _ => rfl⟩
  | _ => exact ⟨nofun, nofun⟩

theorem outOfRanges_eq_nil {u : List Located} (h : ∀ t ∈ u, Token.isUnknown t.token = true →
    Token.isOutOfRange t.token = true) :
    outOfRanges u = [] ↔ ∀ t ∈ u, ∀ text, t.token ≠ .unknown text := by
  rw [outOfRanges, List.map_eq_nil_iff, List.filter_eq_nil_iff]
  refine forall₂_congr fun t ht => ⟨fun hrange text htext => ?_, fun hknown hrange => ?_⟩
  · exact hrange (h t ht (isUnknown_iff.mpr ⟨text, htext⟩))
  · obtain ⟨text, htext, -⟩ := isOutOfRange_iff.mp hrange
    exact hknown text htext

/-- The parser accepts exactly the sentences of the grammar without unknown tokens, and tells every one of
the unknown tokens in a sentence; no sentence has two trees. -/
theorem parse_derives (source : List Char) :
    (∀ f, parse source = .ok f ↔
        (∀ t ∈ lex source, ∀ text, t.token ≠ .unknown text) ∧ Derives Grammar.file (lex source) f) ∧
      (∀ f, Derives Grammar.file (lex source) f → (∃ t ∈ lex source, ∃ text, t.token = .unknown text) →
        ∃ ds, parse source = .error ds ∧
          List.Forall₂ TellsOutOfRange ((lex source).filter fun t => Token.isUnknown t.token) ds) ∧
      ∀ tokens f g, Derives Grammar.file tokens f → Derives Grammar.file tokens g → f = g := by
  have hunique : ∀ tokens f g, Derives Grammar.file tokens f → Derives Grammar.file tokens g → f = g :=
    fun tokens f g hf hg => hf.unique rfl Grammar.file_labelsFit Grammar.file_ends hg
  have hcases := parseTokens_cases (Text.byteSize source) (lex source)
  refine ⟨fun f => ?_, fun f hf hunknown => ?_, hunique⟩
  · show parseTokens (Text.byteSize source) (lex source) = .ok f ↔ _
    rcases hcases with ⟨g, hg, hparse⟩ | ⟨hnone, _, _, _, _, -, -, -, -, hparse⟩
    · rw [hparse, ← outOfRanges_eq_nil hg.isOutOfRange]
      split
      · next hnil =>
        refine ⟨fun heq => ?_, fun h => ?_⟩
        · obtain rfl := Except.ok.inj heq
          exact ⟨List.isEmpty_iff.mp hnil, hg⟩
        · rw [hunique _ g f hg h.2]
      · next hsome => exact ⟨nofun, fun h => absurd (List.isEmpty_iff.mpr h.1) hsome⟩
    · rw [hparse]
      exact ⟨nofun, fun h => absurd h.2 (hnone f)⟩
  · refine ⟨outOfRanges (lex source), ?_, tells_outOfRanges hf.isOutOfRange⟩
    show parseTokens (Text.byteSize source) (lex source) = _
    rcases hcases with ⟨g, hg, hparse⟩ | ⟨hnone, -⟩
    · rw [hparse, if_neg]
      obtain ⟨t, ht, text, htext⟩ := hunknown
      exact fun hnil => (outOfRanges_eq_nil hg.isOutOfRange).mp (List.isEmpty_iff.mp hnil) t ht text htext
    · exact absurd hf (hnone f)

/-- A method that returns a number out of range. -/
def oversized : String := "class T \x7b static fn f() \x7b return 9223372036854775808; \x7d \x7d"

theorem exists_derives_oversized : ∃ f, Derives Grammar.file (lex oversized.toList) f := by
  have hend : (result (many classDecl) ⟨0, 0, lex oversized.toList⟩).map
      (fun r => r.2.rest.isEmpty) = some true := by
    unfold oversized
    rw [String.toList_ofList]
    decide
  obtain ⟨⟨classes, c⟩, hread, hrest⟩ := Option.map_eq_some_iff.mp hend
  obtain ⟨u, v, htokens, rfl, hu⟩ := derives_of_result hread
  obtain rfl : v = [] := List.isEmpty_iff.mp hrest
  rw [List.append_nil] at htokens
  exact ⟨_, htokens ▸ hu⟩

theorem parse_derives_oversized :
    (∃ f, Derives Grammar.file (lex oversized.toList) f) ∧
      ∃ t d, (lex oversized.toList).filter (fun t => Token.isUnknown t.token) = [t] ∧
        parse oversized.toList = .error [d] ∧ TellsOutOfRange t d := by
  obtain ⟨f, hf⟩ := exists_derives_oversized
  obtain ⟨t, ht⟩ : ∃ t, (lex oversized.toList).filter (fun t => Token.isUnknown t.token) = [t] := by
    refine List.length_eq_one_iff.mp ?_
    decide +kernel
  have hmem : t ∈ (lex oversized.toList).filter fun t => Token.isUnknown t.token := by
    rw [ht]
    exact List.mem_singleton_self t
  obtain ⟨hlex, hunknown⟩ := List.mem_filter.mp hmem
  obtain ⟨ds, hparse, hds⟩ := (parse_derives oversized.toList).2.1 f hf ⟨t, hlex, isUnknown_iff.mp hunknown⟩
  rw [ht] at hds
  cases hds with
  | cons htells hnil =>
    cases hnil
    exact ⟨⟨f, hf⟩, t, _, ht, hparse, htells⟩

end ReportTemplate.Syntax
