import ReportTemplate.Proofs.Library.Stable
import ReportTemplate.Proofs.Syntax.Outcomes
import ReportTemplate.Report

/-!
# ReportTemplate.Proofs.Program.Failures — what is reported when a compilation fails

A source that cannot be read is reported with errors only.  One that can be read fails with everything
that was found in it, ordered by place: the failing diagnostics stand in the order of their places, and
they are alone exactly when no warning was found that the policy lets pass.
-/

namespace ReportTemplate.Program

/-! ### The order of diagnostics -/

/-- Diagnostics stand in the order of their places, and those at one place as they were found. -/
structure Ordered (found ds : List Diagnostic) : Prop where
  same : ds.Perm found
  sorted : ds.Pairwise fun a b => a.span.start ≤ b.span.start
  stable : ∀ place, (ds.filter fun d => d.span.start = place) =
    found.filter fun d => d.span.start = place

theorem ordered_iff {found ds : List Diagnostic} :
    Ordered found ds ↔ SortedBy (· ≤ ·) (fun d : Diagnostic => d.span.start) found ds :=
  ⟨fun h => ⟨h.same, h.sorted, h.stable⟩, fun h => ⟨h.same, h.rising, h.stable⟩⟩

theorem ordered_byPlace (found : List Diagnostic) : Ordered found (byPlace found) :=
  ordered_iff.mpr (sortedBy_mergeSort (fun d : Diagnostic => d.span.start) found)

theorem Ordered.filter {found ds : List Diagnostic} (h : Ordered found ds) (p : Diagnostic → Bool) :
    Ordered (found.filter p) (ds.filter p) :=
  ordered_iff.mpr ((ordered_iff.mp h).filter p)

/-- The order of diagnostics does not depend on that in which they were found at different places. -/
theorem byPlace_congr {ds es : List Diagnostic} (h : ∀ place,
    (ds.filter fun d => d.span.start = place) = es.filter fun d => d.span.start = place) :
    byPlace ds = byPlace es := by
  have hds := ordered_iff.mp (ordered_byPlace ds)
  have hes := ordered_iff.mp (ordered_byPlace es)
  exact eq_of_rising hds.rising hes.rising fun place =>
    (hds.stable place).trans ((h place).trans (hes.stable place).symm)

/-- A policy leaves the place of a diagnostic as it is. -/
theorem span_apply (policy : WarningPolicy) (d : Diagnostic) : (policy.apply d).span = d.span := by
  unfold WarningPolicy.apply
  split <;> rfl

theorem apply_byPlace (policy : WarningPolicy) (ds : List Diagnostic) :
    (byPlace ds).map policy.apply = byPlace (ds.map policy.apply) := by
  refine List.map_mergeSort fun a _ b _ => ?_
  rw [span_apply, span_apply]

/-! ### Failed compilations -/

/-- What is found in a source that has been read, under a policy, in the order in which it is found. -/
def findings (refs : ReferenceSet) (policy : WarningPolicy) (source : List Char)
    (file : Syntax.File) : List Diagnostic :=
  (resolve refs (LineIndex.ofSource source) file).2.map policy.apply

/-- **Failed compilations** report at least one failure.  A source that cannot be read is reported with
failures only.  One that can be read is reported with all that is found in it, ordered by place; the
failures among it are the failures found, in this order, and nothing else is reported exactly when
everything found is a failure. -/
theorem compile_error {refs : ReferenceSet} {policy : WarningPolicy} {source : List Char}
    {ds : List Diagnostic} (h : compile refs policy source = .error ds) :
    (∃ d ∈ ds, d.isFailure = true) ∧
    ((Syntax.parse source = .error ds ∧ ∀ d ∈ ds, d.isFailure = true) ∨
      ∃ file, Syntax.parse source = .ok file ∧
        Ordered (findings refs policy source file) ds ∧
        Ordered ((findings refs policy source file).filter Diagnostic.isFailure)
          (ds.filter Diagnostic.isFailure) ∧
        ((∀ d ∈ ds, d.isFailure = true) ↔
          ∀ d ∈ findings refs policy source file, d.isFailure = true)) := by
  unfold compile at h
  split at h
  · next found hparse =>
    obtain rfl := Except.error.inj h
    obtain ⟨hne, hall⟩ := Syntax.failures_of_parse hparse
    obtain ⟨d, hd⟩ := List.exists_mem_of_ne_nil found hne
    exact ⟨⟨d, hd, hall d hd⟩, .inl ⟨hparse, hall⟩⟩
  · next file hparse =>
    unfold ofFile at h
    dsimp only at h
    split at h
    · next hfails =>
      obtain rfl := Except.error.inj h
      have hordered := ordered_byPlace (findings refs policy source file)
      refine ⟨List.any_eq_true.mp hfails, .inr ⟨file, hparse, hordered, hordered.filter _, ?_⟩⟩
      constructor
      · intro hall d hd
        exact hall d (hordered.same.mem_iff.mpr hd)
      · intro hall d hd
        exact hall d (hordered.same.mem_iff.mp hd)
    · cases h

/-- A source that has been read fails with what is found in it, if this holds a failure. -/
theorem compile_of_findings {refs : ReferenceSet} {policy : WarningPolicy} {source : List Char}
    {found ds : List Diagnostic}
    (h : (Syntax.parse source).toOption.map (findings refs policy source) = some found)
    (hplaces : byPlace found = ds) (hfails : ds.any Diagnostic.isFailure = true) :
    compile refs policy source = .error ds := by
  unfold compile
  cases hparse : Syntax.parse source with
  | error _ =>
    rw [hparse] at h
    cases h
  | ok file =>
    rw [hparse] at h
    have hfound : findings refs policy source file = found := Option.some.inj h
    unfold findings at hfound
    unfold ofFile
    dsimp only
    rw [hfound, hplaces, if_pos hfails]

/-- A source with an unused variable and a call of a function that does not exist. -/
def spareAndMissing : String :=
  "class T \x7b
 static fn f() \x7b
  let spare = 1;
  missing();
 \x7d
\x7d
"

/-- The warning about the unused variable. -/
def spareUnused : Diagnostic :=
  { code := .unusedVariable, message := "unused variable 'spare'", span := ⟨33, 38⟩ }

/-- The error about the call. -/
def missingUnknown : Diagnostic :=
  { code := .unknownFunction, message := "unknown function 'missing'", span := ⟨46, 53⟩ }

/-- The call is found before the variable, whose scope ends behind it. -/
theorem findings_spare :
    (Syntax.parse spareAndMissing.toList).toOption.map
        (findings ⟨Catalog.standard.libraries⟩ {} spareAndMissing.toList) =
      some [missingUnknown, spareUnused] := by
  unfold spareAndMissing
  rw [String.toList_ofList]
  decide +kernel

theorem byPlace_spare : byPlace [missingUnknown, spareUnused] = [spareUnused, missingUnknown] := by
  simp [byPlace, List.mergeSort, missingUnknown, spareUnused]

theorem compile_spare :
    compile ⟨Catalog.standard.libraries⟩ {} spareAndMissing.toList =
      .error [spareUnused, missingUnknown] :=
  compile_of_findings findings_spare byPlace_spare (by decide)

/-- Without a policy the call fails the source, and the warning, which fails nothing, is reported
with it. -/
theorem plain_warning_reported :
    compile ⟨Catalog.standard.libraries⟩ {} spareAndMissing.toList =
        .error [spareUnused, missingUnknown] ∧
      spareUnused.isFailure = false ∧
      (Report.Error.compilation [spareUnused, missingUnknown]).message =
        "W0001: unused variable 'spare'\nE0003: unknown function 'missing'" :=
  ⟨compile_spare, by decide, by decide +kernel⟩

theorem compile_error_spare :
    compile ⟨Catalog.standard.libraries⟩ {} spareAndMissing.toList =
        .error [spareUnused, missingUnknown] ∧
      ∃ file, Syntax.parse spareAndMissing.toList = .ok file ∧
        Ordered (findings ⟨Catalog.standard.libraries⟩ {} spareAndMissing.toList file)
          [spareUnused, missingUnknown] ∧
        Ordered ((findings ⟨Catalog.standard.libraries⟩ {} spareAndMissing.toList file).filter
          Diagnostic.isFailure) [missingUnknown] := by
  refine ⟨compile_spare, ?_⟩
  rcases (compile_error compile_spare).2 with ⟨-, hall⟩ | ⟨file, hparse, hordered, hfailures, -⟩
  · exact absurd (hall spareUnused List.mem_cons_self) (by decide)
  · exact ⟨file, hparse, hordered, hfailures⟩

end ReportTemplate.Program
