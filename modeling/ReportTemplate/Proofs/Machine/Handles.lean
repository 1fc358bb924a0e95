import ReportTemplate.Proofs.Library.Handles
import ReportTemplate.Proofs.Machine.Safety
import ReportTemplate.Proofs.Program.Confined

/-!
# ReportTemplate.Proofs.Machine.Handles — a run uses only the handles that it was given

No expression of the language makes a document or a log: a program of the standard libraries gets them as
arguments or not at all.
-/

namespace ReportTemplate

variable {handle : Handle}

/-- A world has the same document or log as another. -/
def Handle.Same : Handle → Machine.World → Machine.World → Prop
  | document, w, w' => w'.document = w.document
  | log, w, w' => w'.log = w.log

open Value (Free Holds)

theorem free_literal (l : Syntax.Literal) : Free handle (Program.Resolve.literal l).1 := by
  cases l with
  | null => exact Value.free_null
  | bool b => exact Value.free_bool b
  | int n => exact Value.free_int n
  | float x => exact Value.free_float x
  | string s => exact Value.free_str s

/-- References to the standard libraries provide no handles. -/
theorem provides_free {refs : ReferenceSet}
    (hrefs : ∀ l ∈ refs.libraries, l ∈ Catalog.standard.libraries) :
    Program.Provides (Free handle) refs where
  literal := free_literal
  list := Value.free_list.mpr
  function hl hg := closed_standard handle _ (hrefs _ hl) _ hg

namespace Machine

theorem Untouched.same {w w' : World} (h : Untouched (Free handle) w w') : handle.Same w w' := by
  cases handle with
  | document => exact h.document Value.not_free_value
  | log => exact h.log Value.not_free_value

/-- **Handles cannot be forged**: a method of a program that compiles against standard libraries, on
arguments in which the document occurs at no depth of lists, leaves the document as it was, however the
run ends, and gives no value with the document in it.  The same holds of the log. -/
theorem invoke_unforged {refs : ReferenceSet} {policy : WarningPolicy} {source : List Char}
    {c : Compiled} (hrefs : ∀ l ∈ refs.libraries, l ∈ Catalog.standard.libraries)
    (h : Program.compile refs policy source = .ok c) (handle : Handle) (steps depth : Nat)
    (id : Program.MethodId) {args : List Value} (hargs : ∀ a ∈ args, ¬ Holds handle a)
    (world : World) :
    (∀ v w, invoke c.program steps depth id args world = .ok v w →
      handle.Same world w ∧ ¬ Holds handle v) ∧
    ∀ k w, invoke c.program steps depth id args world = .error k w → handle.Same world w := by
  have hprogram : c.program.Closed (Free handle) := Program.compile_closed (provides_free hrefs) h
  have hrun := callConfined_invoke (closed_free handle) hprogram steps depth id args world hargs
  refine ⟨fun v w hend => ?_, fun k w hend => ?_⟩
  · rw [hend] at hrun
    exact ⟨hrun.2.same, hrun.1⟩
  · rw [hend] at hrun
    exact Untouched.same hrun

theorem invoke_unforged_counting :
    (∀ l ∈ countingRefs.libraries, l ∈ Catalog.standard.libraries) ∧
    (∀ a ∈ [Value.document, .null], ¬ Holds .log a) ∧
    ∃ c v w, Program.compile countingRefs {} counting = .ok c ∧
      invoke c.program 0 0 0 [.document, .null] {} = .ok v w ∧
      w.document.blocks = #[.paragraph "0", .paragraph "1"] ∧ w.log = #[] ∧ ¬ Holds .log v := by
  have hrefs : ∀ l ∈ countingRefs.libraries, l ∈ Catalog.standard.libraries := by
    simp [countingRefs, Catalog.standard]
  have hargs : ∀ a ∈ [Value.document, .null], ¬ Holds .log a := by
    rintro a ha hholds
    rcases List.mem_pair.mp ha with rfl | rfl <;> cases hholds
  obtain ⟨c, v, w, hc, hrun, hblocks, -⟩ := counting_run
  obtain ⟨hlog, hv⟩ := (invoke_unforged hrefs hc .log 0 0 0 hargs {}).1 v w hrun
  exact ⟨hrefs, hargs, c, v, w, hc, hrun, hblocks, hlog, hv⟩

end Machine

end ReportTemplate
