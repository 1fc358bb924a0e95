import ReportTemplate.Proofs.Program.Ranges

/-!
# ReportTemplate.Proofs.Program.Policies — a warning policy only decides whether a source compiles

What is found in a source does not depend on the policy, which only marks some of the warnings.  So a
source that compiles under a policy compiles to the same under every policy that escalates less.
-/

namespace ReportTemplate

/-- The diagnostic without a mark of a policy. -/
def Diagnostic.plain (d : Diagnostic) : Diagnostic := { d with escalated := false }

namespace WarningPolicy

/-- The diagnostic is a warning that the policy escalates. -/
def Covers (policy : WarningPolicy) (d : Diagnostic) : Prop :=
  d.severity = .warning ∧ (policy.all = true ∨ d.code ∈ policy.escalate)

/-- The policy `q` escalates at least what `p` does. -/
def AtLeast (q p : WarningPolicy) : Prop := ∀ d, p.Covers d → q.Covers d

variable {p q policy : WarningPolicy} {d : Diagnostic}

/-- A policy with more codes escalates more. -/
theorem atLeast_of_subset (hall : p.all = true → q.all = true) (hcodes : p.escalate ⊆ q.escalate) :
    q.AtLeast p :=
  fun _ hd => ⟨hd.1, hd.2.imp hall fun hmem => hcodes hmem⟩

theorem escalates_iff : policy.escalates d.code = true ↔ policy.Covers d := by
  simp [escalates, Covers, Diagnostic.severity]

theorem apply_of_covers (h : policy.Covers d) : policy.apply d = { d with escalated := true } :=
  if_pos (escalates_iff.mpr h)

theorem apply_of_not_covers (h : ¬ policy.Covers d) : policy.apply d = d :=
  if_neg (mt escalates_iff.mp h)

theorem plain_apply (policy : WarningPolicy) (d : Diagnostic) : (policy.apply d).plain = d.plain := by
  by_cases h : policy.Covers d
  · rw [apply_of_covers h]
    rfl
  · rw [apply_of_not_covers h]

theorem code_apply (policy : WarningPolicy) (d : Diagnostic) : (policy.apply d).code = d.code := by
  show (policy.apply d).plain.code = d.plain.code
  rw [plain_apply]

theorem covers_apply : policy.Covers (policy.apply d) ↔ policy.Covers d := by
  unfold Covers Diagnostic.severity
  rw [code_apply]

theorem escalated_apply (h : d.escalated = false) :
    (policy.apply d).escalated = true ↔ policy.Covers d := by
  by_cases hd : policy.Covers d
  · rw [apply_of_covers hd]
    exact iff_of_true rfl hd
  · rw [apply_of_not_covers hd, h]
    exact iff_of_false Bool.false_ne_true hd

/-- A diagnostic fails a compilation if it is an error, or a warning that the policy escalates. -/
theorem isFailure_apply (h : d.escalated = false) :
    (policy.apply d).isFailure = true ↔ d.severity = .error ∨ policy.Covers d := by
  have hseverity : (policy.apply d).severity = d.severity :=
    congrArg Diagnostic.Code.severity (code_apply policy d)
  unfold Diagnostic.isFailure
  rw [Bool.or_eq_true, decide_eq_true_iff, hseverity, escalated_apply h]

end WarningPolicy

namespace Program

variable {refs : ReferenceSet} {policy : WarningPolicy} {source : List Char} {file : Syntax.File}

theorem plain_byPlace (ds : List Diagnostic) :
    (byPlace ds).map Diagnostic.plain = byPlace (ds.map Diagnostic.plain) :=
  List.map_mergeSort fun _ _ _ _ => rfl

/-- What is found in a source that has been read bears no mark of a policy. -/
theorem escalated_of_found (h : Syntax.parse source = .ok file) :
    ∀ d ∈ (resolve refs (LineIndex.ofSource source) file).2, d.escalated = false :=
  fun d hd => (foundAt_resolve refs _ (Syntax.spans_of_parse h) d hd).2

/-- The findings are what is found, with the marks of the policy. -/
theorem plain_findings (refs : ReferenceSet) (policy : WarningPolicy) (source : List Char)
    (file : Syntax.File) : (findings refs policy source file).map Diagnostic.plain =
      (resolve refs (LineIndex.ofSource source) file).2.map Diagnostic.plain := by
  unfold findings
  rw [List.map_map]
  exact List.map_congr_left fun d _ => policy.plain_apply d

/-- Something that is found in the source fails it under the policy. -/
def FailsUnder (refs : ReferenceSet) (policy : WarningPolicy) (source : List Char)
    (file : Syntax.File) : Prop :=
  ∃ d ∈ (resolve refs (LineIndex.ofSource source) file).2, d.severity = .error ∨ policy.Covers d

theorem any_isFailure_iff (h : Syntax.parse source = .ok file) :
    (byPlace (findings refs policy source file)).any Diagnostic.isFailure = true ↔
      FailsUnder refs policy source file := by
  have hperm := (ordered_byPlace (findings refs policy source file)).same
  rw [hperm.any_eq, findings, List.any_map, List.any_eq_true]
  exact exists_congr fun d => and_congr_right fun hd =>
    WarningPolicy.isFailure_apply (escalated_of_found h d hd)

/-- A source that has been read compiles if nothing fails it, and all that is found is reported. -/
theorem compile_of_parse (refs : ReferenceSet) (policy : WarningPolicy)
    (h : Syntax.parse source = .ok file) :
    (FailsUnder refs policy source file ∧
        compile refs policy source = .error (byPlace (findings refs policy source file))) ∨
      (¬ FailsUnder refs policy source file ∧
        compile refs policy source = .ok ⟨(resolve refs (LineIndex.ofSource source) file).1,
          byPlace (findings refs policy source file)⟩) := by
  have hcompile : compile refs policy source = ofFile refs policy source file := by
    unfold compile
    rw [h]
  rw [hcompile, ← any_isFailure_iff h]
  unfold ofFile
  dsimp only
  by_cases hfails : (byPlace (findings refs policy source file)).any Diagnostic.isFailure = true
  · exact .inl ⟨hfails, if_pos hfails⟩
  · exact .inr ⟨hfails, if_neg hfails⟩

theorem reports_of_parse (h : Syntax.parse source = .ok file) :
    reports (compile refs policy source) = byPlace (findings refs policy source file) := by
  rcases compile_of_parse refs policy h with ⟨-, hcompile⟩ | ⟨-, hcompile⟩
  · rw [hcompile]
    rfl
  · rw [hcompile]
    rfl

/-- A policy that escalates nothing that is found leaves no mark. -/
theorem findings_of_not_fails (h : ¬ FailsUnder refs policy source file) :
    findings refs policy source file = (resolve refs (LineIndex.ofSource source) file).2 := by
  unfold findings
  refine List.map_congr_left (g := id) (fun d hd => ?_) |>.trans (List.map_id _)
  exact WarningPolicy.apply_of_not_covers fun hcovers => h ⟨d, hd, .inr hcovers⟩

/-- **Policies** only decide whether a source compiles.  One that compiles under a policy compiles to the
same program, with the same warnings, under each that escalates no more.  A source fails under a policy
exactly if it cannot be read, or an error or a warning that the policy escalates is found in it.  What is
reported under two policies differs in the marks only, and the marked are the warnings that the policy
escalates. -/
theorem compile_policies (refs : ReferenceSet) (source : List Char) (p q : WarningPolicy)
    (h : q.AtLeast p) :
    (∀ c, compile refs q source = .ok c → compile refs p source = .ok c) ∧
    ((∃ ds, compile refs p source = .error ds) ↔
      (∃ ds, Syntax.parse source = .error ds) ∨
        ∃ file, Syntax.parse source = .ok file ∧
          ∃ d ∈ (resolve refs (LineIndex.ofSource source) file).2,
            d.severity = .error ∨ p.Covers d) ∧
    (reports (compile refs p source)).map Diagnostic.plain =
      (reports (compile refs q source)).map Diagnostic.plain ∧
    ∀ file, Syntax.parse source = .ok file → ∀ policy, ∀ d ∈ reports (compile refs policy source),
      d.escalated = true ↔ policy.Covers d := by
  cases hparse : Syntax.parse source with
  | error found =>
    have hfailed (policy : WarningPolicy) : compile refs policy source = .error found := by
      unfold compile
      rw [hparse]
    refine ⟨fun c hc => ?_, ?_, by rw [hfailed p, hfailed q], nofun⟩
    · rw [hfailed q] at hc
      cases hc
    · exact iff_of_true ⟨found, hfailed p⟩ (.inl ⟨found, rfl⟩)
  | ok file =>
    refine ⟨fun c hc => ?_, ?_, ?_, ?_⟩
    · -- What `q` does not escalate, `p` does not either, and then both leave no mark.
      rcases compile_of_parse refs q hparse with ⟨-, hq⟩ | ⟨hnot, hq⟩
      · rw [hq] at hc
        cases hc
      · have hnot' : ¬ FailsUnder refs p source file := fun ⟨d, hd, hfails⟩ =>
          hnot ⟨d, hd, hfails.imp_right (h d)⟩
        rcases compile_of_parse refs p hparse with ⟨hfails, -⟩ | ⟨-, hp⟩
        · exact absurd hfails hnot'
        · rw [hp, findings_of_not_fails hnot', ← findings_of_not_fails hnot, ← hq, hc]
    · have hiff : (∃ ds, compile refs p source = .error ds) ↔ FailsUnder refs p source file := by
        rcases compile_of_parse refs p hparse with ⟨hfails, hp⟩ | ⟨hnot, hp⟩
        · exact iff_of_true ⟨_, hp⟩ hfails
        · rw [hp]
          exact iff_of_false (fun ⟨_, hds⟩ => nomatch hds) hnot
      rw [hiff]
      constructor
      · exact fun hfails => .inr ⟨file, rfl, hfails⟩
      · rintro (⟨_, hds⟩ | ⟨_, hfile, hfails⟩)
        · cases hds
        · obtain rfl := Except.ok.inj hfile
          exact hfails
    · rw [reports_of_parse hparse, reports_of_parse hparse, plain_byPlace, plain_byPlace,
        plain_findings, plain_findings]
    · intro _ _ policy d hd
      rw [reports_of_parse hparse] at hd
      have hfound := (ordered_byPlace (findings refs policy source file)).same.mem_iff.mp hd
      obtain ⟨e, he, rfl⟩ := List.mem_map.mp hfound
      rw [WarningPolicy.escalated_apply (escalated_of_found hparse e he), WarningPolicy.covers_apply]

/-- A policy that escalates unreachable statements lets a source with an unused variable compile, and so
does the policy that escalates nothing, with the same result.  The policy that escalates everything
reports the same about it. -/
theorem compile_policies_spareOnly :
    WarningPolicy.AtLeast ⟨false, [.unreachableCode]⟩ {} ∧
    (∃ c, compile ⟨Catalog.standard.libraries⟩ ⟨false, [.unreachableCode]⟩ spareOnly.toList = .ok c ∧
      compile ⟨Catalog.standard.libraries⟩ {} spareOnly.toList = .ok c) ∧
    WarningPolicy.AtLeast ⟨true, []⟩ {} ∧
    (reports (compile ⟨Catalog.standard.libraries⟩ ⟨true, []⟩ spareOnly.toList)).map
      Diagnostic.plain = [spareUnused] := by
  have hcodes : WarningPolicy.AtLeast ⟨false, [.unreachableCode]⟩ {} :=
    WarningPolicy.atLeast_of_subset nofun (List.nil_subset _)
  have hall : WarningPolicy.AtLeast ⟨true, []⟩ {} :=
    WarningPolicy.atLeast_of_subset (fun _ => rfl) (List.nil_subset _)
  have hfound : (Syntax.parse spareOnly.toList).toOption.map (fun file =>
      (resolve ⟨Catalog.standard.libraries⟩ (LineIndex.ofSource spareOnly.toList) file).2) =
        some [spareUnused] := by
    decide +kernel
  cases hparse : Syntax.parse spareOnly.toList with
  | error _ =>
    rw [hparse] at hfound
    cases hfound
  | ok file =>
    rw [hparse] at hfound
    have hfile : (resolve ⟨Catalog.standard.libraries⟩ (LineIndex.ofSource spareOnly.toList) file).2 =
        [spareUnused] := Option.some.inj hfound
    refine ⟨hcodes, ?_, hall, ?_⟩
    · have hnot : ¬ FailsUnder ⟨Catalog.standard.libraries⟩ ⟨false, [.unreachableCode]⟩
          spareOnly.toList file := by
        rintro ⟨d, hd, hfails⟩
        rw [hfile, List.mem_singleton] at hd
        subst hd
        exact absurd hfails (by unfold WarningPolicy.Covers; decide)
      rcases compile_of_parse _ _ hparse with ⟨hfails, -⟩ | ⟨-, hok⟩
      · exact absurd hfails hnot
      · exact ⟨_, hok, (compile_policies _ spareOnly.toList {} _ hcodes).1 _ hok⟩
    · obtain ⟨c, hc, hwarnings⟩ := compile_spareOnly
      rw [← (compile_policies _ spareOnly.toList {} ⟨true, []⟩ hall).2.2.1, hc]
      show c.warnings.map Diagnostic.plain = _
      rw [hwarnings]
      rfl

end Program

end ReportTemplate
