import ReportTemplate.Proofs.Grammar.Accepted
import ReportTemplate.Proofs.Grammar.Covers
import ReportTemplate.Proofs.Program.Failures
import ReportTemplate.Proofs.Program.Places
import ReportTemplate.Proofs.Token.Lossless

/-!
# ReportTemplate.Proofs.Program.Ranges — diagnostics stand at pieces of the source

The span of every diagnostic is a piece of the source, with one exception: the message that the input ends
too early begins at the end of the source and ends where the last token does, which is in front of it when
blanks or a comment stand behind that token.
-/

namespace ReportTemplate

open Text (byteSize)

/-! ### Pieces of a source -/

/-- A place between two characters of a source, or at one of its ends. -/
def Border (source : List Char) (n : Nat) : Prop :=
  ∃ before after, source = before ++ after ∧ n = byteSize before

theorem border_end (source : List Char) : Border source (byteSize source) :=
  ⟨source, [], (List.append_nil source).symm, rfl⟩

theorem Border.le {source : List Char} {n : Nat} (h : Border source n) : n ≤ byteSize source := by
  obtain ⟨before, after, rfl, rfl⟩ := h
  rw [Text.byteSize_append]
  exact Nat.le_add_right _ _

/-- A span that can be cut out of a source. -/
structure Span.Within (source : List Char) (s : Span) : Prop where
  ordered : s.start ≤ s.stop
  inside : s.stop ≤ byteSize source
  start : Border source s.start
  stop : Border source s.stop

/-- What lies in order between borders can be cut out. -/
theorem Span.within_of_borders {source : List Char} {s : Span} (hstart : Border source s.start)
    (hstop : Border source s.stop) (h : s.start ≤ s.stop) : s.Within source :=
  ⟨h, hstop.le, hstart, hstop⟩

namespace Syntax

section

variable {source : List Char}

theorem within_of_mem_lex {t : Located} (h : t ∈ lex source) : t.span.Within source := by
  obtain ⟨before, text, after, hsource, -, hspan, -⟩ := (Lexer.tiled_locate source 0).located t h
  rw [Nat.zero_add, Nat.zero_add] at hspan
  refine Span.within_of_borders ?_ ?_ ?_
  · exact ⟨before, text ++ after, by rw [hsource, List.append_assoc], by rw [hspan]⟩
  · exact ⟨before ++ text, after, hsource, by rw [hspan]⟩
  · rw [hspan, Text.byteSize_append]
    exact Nat.le_add_right _ _

/-- The last token of a row is one of its tokens. -/
theorem getLast_mem (t : Located) (v : List Located) : v.getLast?.getD t ∈ t :: v := by
  cases hlast : v.getLast? with
  | none => exact List.mem_cons_self
  | some t' => exact List.mem_cons_of_mem t (List.mem_of_getLast? hlast)

theorem within_of_covered {s : Span} (h : Covered (lex source) s) : s.Within source := by
  obtain ⟨t, v, hrow, rfl⟩ := h
  have htoken : ∀ t' ∈ t :: v, t'.span.Within source :=
    fun t' ht' => within_of_mem_lex (hrow.subset ht')
  have hfirst := htoken t List.mem_cons_self
  have hlast := htoken _ (getLast_mem t v)
  refine Span.within_of_borders hfirst.start hlast.stop ?_
  have hordered := (Lexer.tiled_locate source 0).ordered.sublist hrow.sublist
  rcases List.mem_cons.mp (getLast_mem t v) with heq | hmem
  · rw [cover, heq]
    exact hfirst.ordered
  · have hbehind := (List.pairwise_cons.mp hordered).1 _ hmem
    exact (hfirst.ordered.trans hbehind).trans hlast.ordered

/-! ### Sources that are not read -/

/-- The message that the input ends too early, when something that is no token stands at its end. -/
structure PastLast (source : List Char) (d : Diagnostic) : Prop where
  message : d.message = "unexpected end of input"
  span : ∃ t, (lex source).getLast? = some t ∧ t.span.stop < byteSize source ∧
    d.span = ⟨byteSize source, t.span.stop⟩

theorem PastLast.inverted {d : Diagnostic} (h : PastLast source d) : d.span.stop < d.span.start := by
  obtain ⟨t, -, hlt, hspan⟩ := h.span
  rw [hspan]
  exact hlt

/-- The ends of the span are borders of the source, and they are in order but for one message. -/
structure Reported (source : List Char) (d : Diagnostic) : Prop where
  start : Border source d.span.start
  stop : Border source d.span.stop
  within : d.span.Within source ↔ ¬ PastLast source d

theorem reported_of_within {d : Diagnostic} (h : d.span.Within source) : Reported source d :=
  ⟨h.start, h.stop, fun _ hpast => Nat.not_le.mpr hpast.inverted h.ordered, fun _ => h⟩

theorem reported_unexpected (f : Failure) :
    Reported source (unexpected (byteSize source) (lex source) f) := by
  unfold unexpected
  split
  next t ht => exact reported_of_within (within_of_mem_lex (List.mem_of_getElem? ht))
  next =>
    dsimp only
    cases hlast : (lex source).getLast? with
    | none => exact reported_of_within ⟨Nat.le_refl _, Nat.le_refl _, border_end _, border_end _⟩
    | some t =>
      have ht := within_of_mem_lex (List.mem_of_getLast? hlast)
      refine ⟨border_end _, ht.stop, fun hwithin hpast => ?_, fun hpast => ?_⟩
      · obtain ⟨t', -, hlt, hspan⟩ := hpast.span
        have hordered : byteSize source ≤ t.span.stop := hwithin.ordered
        have hstop : t.span.stop = t'.span.stop := (Span.mk.inj hspan).2
        omega
      · refine Span.within_of_borders (border_end _) ht.stop (Nat.not_lt.mp fun hlt => ?_)
        exact hpast ⟨rfl, t, hlast, hlt, rfl⟩

theorem reported_outOfRanges {u : List Located} (h : ∀ t ∈ u, t ∈ lex source) :
    ∀ d ∈ outOfRanges u, Reported source d := by
  intro d hd
  obtain ⟨t, ht, rfl⟩ := List.mem_map.mp hd
  exact reported_of_within (within_of_mem_lex (h t (List.mem_filter.mp ht).1))

theorem reported_of_parse {ds : List Diagnostic} (h : parse source = .error ds) :
    ∀ d ∈ ds, Reported source d := by
  have hparse : parseTokens (byteSize source) (lex source) = .error ds := h
  rcases parseTokens_cases (byteSize source) (lex source) with ⟨f, -, hread⟩ |
      ⟨-, classes, u, v, f, htokens, -, -, -, hread⟩
  · rw [hread] at hparse
    split at hparse
    · cases hparse
    · obtain rfl := Except.error.inj hparse
      exact reported_outOfRanges fun _ ht => ht
  · rw [hread] at hparse
    obtain rfl := Except.error.inj hparse
    have hu : ∀ t ∈ u, t ∈ lex source := fun t ht => htokens ▸ List.mem_append_left v ht
    exact List.forall_mem_append.mpr ⟨reported_outOfRanges hu,
      List.forall_mem_singleton.mpr (reported_unexpected f)⟩

theorem derives_of_parse {f : File} (h : parse source = .ok f) : Derives Grammar.file (lex source) f := by
  have hparse : parseTokens (byteSize source) (lex source) = .ok f := h
  rcases parseTokens_cases (byteSize source) (lex source) with ⟨g, hg, hread⟩ |
      ⟨-, _, _, _, _, -, -, -, -, hread⟩
  · rw [hread] at hparse
    split at hparse
    · obtain rfl := Except.ok.inj hparse
      exact hg
    · cases hparse
  · rw [hread] at hparse
    cases hparse

theorem spans_of_parse {f : File} (h : parse source = .ok f) : f.Spans (Span.Within source) :=
  spread_file (derives_of_parse h) _ fun _ hs => within_of_covered hs

end

end Syntax

/-! ### Compilations -/

namespace Program

theorem within_byPlace {refs : ReferenceSet} {policy : WarningPolicy} {source : List Char}
    {file : Syntax.File} (h : Syntax.parse source = .ok file) :
    PlacedAt (Span.Within source) (byPlace (findings refs policy source file)) := by
  intro d hd
  have hfound := (ordered_byPlace (findings refs policy source file)).same.mem_iff.mp hd
  obtain ⟨e, he, rfl⟩ := List.mem_map.mp hfound
  rw [span_apply]
  exact placedAt_resolve refs _ (Syntax.spans_of_parse h) e he

/-- **Diagnostics stand at pieces of the source**: the warnings of a source that compiles all do, and of
what is reported about one that does not, everything but the message that it ends too early, and that too
unless something stands behind the last token.  The ends of every span are borders of characters. -/
theorem compile_spans (refs : ReferenceSet) (policy : WarningPolicy) (source : List Char) :
    (∀ c, compile refs policy source = .ok c → ∀ d ∈ c.warnings, d.span.Within source) ∧
      ∀ ds, compile refs policy source = .error ds → ∀ d ∈ ds, Syntax.Reported source d := by
  unfold compile
  cases hparse : Syntax.parse source with
  | error found =>
    refine ⟨nofun, fun ds hds => ?_⟩
    obtain rfl := Except.error.inj hds
    exact Syntax.reported_of_parse hparse
  | ok file =>
    have hplaced : PlacedAt (Span.Within source) (byPlace (findings refs policy source file)) :=
      within_byPlace hparse
    dsimp only
    unfold ofFile
    dsimp only
    split
    · refine ⟨nofun, fun ds hds => ?_⟩
      obtain rfl := Except.error.inj hds
      exact fun d hd => Syntax.reported_of_within (hplaced d hd)
    · refine ⟨fun c hc => ?_, nofun⟩
      obtain rfl := Except.ok.inj hc
      exact hplaced

/-- A class that is never closed, and a line feed. -/
def openClass : String := "class T \x7b\n"

theorem parse_openClass : ∃ d, Syntax.parse openClass.toList = .error [d] ∧
    d.message = "unexpected end of input" ∧ d.span = ⟨10, 9⟩ := by
  have hfound : (((Syntax.parse openClass.toList).map fun _ => []).tryCatch .ok).toOption.map
      (List.map fun d => (d.message, d.span)) = some [("unexpected end of input", ⟨10, 9⟩)] := by
    decide
  cases hparse : Syntax.parse openClass.toList with
  | ok file =>
    rw [hparse] at hfound
    cases hfound
  | error ds =>
    rw [hparse] at hfound
    obtain ⟨d, rfl, hd⟩ := List.map_eq_singleton_iff.mp (Option.some.inj hfound)
    obtain ⟨hmessage, hspan⟩ := Prod.mk.inj hd
    exact ⟨d, rfl, hmessage, hspan⟩

/-- The message that the source ends too early begins behind the line feed and ends in front of it. -/
theorem openClass_inverted : ∃ d,
    compile ⟨Catalog.standard.libraries⟩ {} openClass.toList = .error [d] ∧
      d.span = ⟨10, 9⟩ ∧ ¬ d.span.Within openClass.toList := by
  obtain ⟨d, hparse, -, hspan⟩ := parse_openClass
  refine ⟨d, ?_, hspan, fun hwithin => ?_⟩
  · unfold compile
    rw [hparse]
  · have hordered := hwithin.ordered
    rw [hspan] at hordered
    exact absurd hordered (by decide)

/-- A source with an unused variable. -/
def spareOnly : String := "class T \x7b\n static fn f() \x7b\n  let spare = 1;\n \x7d\n\x7d\n"

theorem findings_spareOnly :
    (Syntax.parse spareOnly.toList).toOption.map
        (findings ⟨Catalog.standard.libraries⟩ {} spareOnly.toList) = some [spareUnused] := by
  unfold spareOnly
  rw [String.toList_ofList]
  decide +kernel

theorem compile_spareOnly : ∃ c,
    compile ⟨Catalog.standard.libraries⟩ {} spareOnly.toList = .ok c ∧ c.warnings = [spareUnused] := by
  have hfound := findings_spareOnly
  unfold compile
  cases hparse : Syntax.parse spareOnly.toList with
  | error ds =>
    rw [hparse] at hfound
    cases hfound
  | ok file =>
    rw [hparse] at hfound
    have hfile : findings ⟨Catalog.standard.libraries⟩ {} spareOnly.toList file = [spareUnused] :=
      Option.some.inj hfound
    have hplace : byPlace [spareUnused] = [spareUnused] := by simp [byPlace]
    unfold findings at hfile
    unfold ofFile
    dsimp only
    rw [hfile, hplace]
    exact ⟨_, rfl, rfl⟩

/-- A warning of a source that compiles, and what is reported about one that does not. -/
theorem compile_spans_spare :
    (∃ c, compile ⟨Catalog.standard.libraries⟩ {} spareOnly.toList = .ok c ∧
        c.warnings = [spareUnused] ∧ spareUnused.span.Within spareOnly.toList) ∧
      compile ⟨Catalog.standard.libraries⟩ {} spareAndMissing.toList =
        .error [spareUnused, missingUnknown] ∧
      ∀ d ∈ [spareUnused, missingUnknown], d.span.Within spareAndMissing.toList := by
  obtain ⟨c, hc, hwarnings⟩ := compile_spareOnly
  have hspare := (compile_spans ⟨Catalog.standard.libraries⟩ {} spareOnly.toList).1 c hc spareUnused
    (hwarnings ▸ List.mem_cons_self)
  have hreported := (compile_spans ⟨Catalog.standard.libraries⟩ {} spareAndMissing.toList).2 _
    compile_spare
  have hmessages : ∀ d ∈ [spareUnused, missingUnknown], d.message ≠ "unexpected end of input" := by
    decide
  refine ⟨⟨c, hc, hwarnings, hspare⟩, compile_spare, fun d hd => ?_⟩
  exact (hreported d hd).within.mpr fun hpast => hmessages d hd hpast.message

end Program

end ReportTemplate
