import ReportTemplate.Proofs.Machine.Ends
import ReportTemplate.Proofs.Program.Unreachable
import ReportTemplate.Proofs.Scoped.DeadCode

/-!
# ReportTemplate.Proofs.Program.DeadCode — code behind a `return` is dead

A source is reported where a statement stands behind a `return` of its block, and runs as it does without
the statements that stand there.
-/

namespace ReportTemplate

namespace Program

theorem signatures_resolve (refs : ReferenceSet) (lines : LineIndex) (file : Syntax.File) :
    (resolve refs lines file).1.methods.map Method.signature =
      (declarations refs file).methods.map Pending.signature := by
  show (((declarations refs file).methods.map _).map Prod.fst).map Method.signature = _
  rw [List.map_map, List.map_map]
  rfl

/-- A pruned source has the methods that the source has. -/
theorem signatures_pruned (refs : ReferenceSet) (lines : LineIndex) (file : Syntax.File) :
    (resolve refs lines file.pruned).1.methods.map Method.signature =
      (resolve refs lines file).1.methods.map Method.signature := by
  rw [signatures_resolve, signatures_resolve, declarations_pruned]
  show ((declarations refs file).methods.map Pending.pruned).map Pending.signature = _
  rw [List.map_map]
  rfl

end Program

namespace Scoped

open Machine (EndsAlike)

theorem endsAlike_forget {α : Type} {r r' : EStateM.Result Machine.Halt World α}
    (h : EndsAlike r r') : EndsAlike (forget r) (forget r') := by
  cases h with
  | ok a w => exact .ok a w.left
  | error alike w => exact .error alike w.left

end Scoped

namespace Machine

open Program (Clean Method MethodId declarations resolve unreachable unreachableStatement)
open Syntax.Stmt (behindReturn?)

/-- What a method gives on as many arguments as it has parameters does not depend on what stands behind
a `return`. -/
theorem endsAlike_pruned {refs : ReferenceSet} (hapart : refs.Apart) {lines : LineIndex}
    {file : Syntax.File} (hclean : Clean (resolve refs lines file).2)
    (hpruned : Clean (resolve refs lines file.pruned).2) {id : MethodId} {m : Method}
    (hm : (resolve refs lines file).1.methods[id]? = some m) {args : List Value}
    (hargs : m.signature.params.length ≤ args.length) (steps depth : Nat) (world : World) :
    EndsAlike (invoke (resolve refs lines file).1 steps depth id args world)
      (invoke (resolve refs lines file.pruned).1 steps depth id args world) := by
  obtain ⟨n, hn, himplements⟩ := Program.implements_of_getElem? hclean hm
  have hn' : (declarations refs file.pruned).methods[id]? = some n.pruned := by
    rw [Program.declarations_pruned, Program.Declarations.getElem?_pruned, hn, Option.map_some]
  rw [himplements.signature] at hargs
  have hleft := Scoped.sameResult_invoke hclean steps depth hn hargs ⟨world, []⟩
  have hright := Scoped.sameResult_invoke hpruned steps depth hn' hargs ⟨world, []⟩
  rw [hleft.eq_forget, hright.eq_forget]
  exact Scoped.endsAlike_forget
    (Scoped.agrees_invoke hapart hclean hpruned steps depth id args ⟨world, []⟩)

/-- **Code behind a `return` is dead.**  Each block of a method, blocks behind a `return` included, in
which a statement stands behind the first `return` is reported once, at the first such statement, and
there are no other such reports.  Where no name is both a function and a document method, and no error is
reported in a source or in the source without the statements behind a `return` of their block, both run
alike: every method, on any arguments and in any state of the document and the log, gives the same value or
fails on the same line of the same method, and leaves the same state. -/
theorem dead_code_irrelevant {refs : ReferenceSet} (hapart : refs.Apart) (lines : LineIndex)
    (file : Syntax.File) :
    (unreachable (resolve refs lines file).2).Perm
      (((file.firstMethods.flatMap Syntax.Method.blocks).filterMap behindReturn?).map
        unreachableStatement) ∧
    (resolve refs lines file.pruned).1.methods.map Method.signature =
      (resolve refs lines file).1.methods.map Method.signature ∧
    (Clean (resolve refs lines file).2 → Clean (resolve refs lines file.pruned).2 →
      ∀ {id : MethodId} {m : Method}, (resolve refs lines file).1.methods[id]? = some m →
        ∀ (args : List Value) (steps depth : Nat) (world : World),
          EndsAlike (invoke (resolve refs lines file).1 steps depth id (filled m args) world)
            (invoke (resolve refs lines file.pruned).1 steps depth id (filled m args) world)) := by
  refine ⟨Program.unreachable_resolve refs lines file, Program.signatures_pruned refs lines file, ?_⟩
  intro hclean hpruned id m hm args steps depth world
  have hlength : m.signature.params.length ≤ (filled m args).length := by
    rw [filled, List.length_append, List.length_replicate]
    omega
  exact endsAlike_pruned hapart hclean hpruned hm hlength steps depth world

/-- `static fn f(s: string) { let x = s; if s == "" { return x; x = 1; while true { return x; return; } }
return x.upper(); }` -/
def widening : Syntax.File :=
  let at0 : Span := ⟨0, 0⟩
  let ident (name : String) : Syntax.Ident := ⟨name, at0⟩
  let name (name : String) : Syntax.Expr := .ident at0 name
  ⟨[.mk at0 (ident "T") [.inl
    { span := at0, isStatic := true, name := ident "f"
      params := [⟨ident "s", .named at0 "string"⟩]
      returns := none
      body := [
        .declare at0 (ident "x") (name "s"),
        .branch at0 [(.binary at0 .equal (name "s") (.literal at0 (.string "")), [
          .result at0 (some (name "x")),
          .assign ⟨1, 2⟩ (ident "x") (.literal at0 (.int 1)),
          .loop at0 (.literal at0 (.bool true)) [
            .result at0 (some (name "x")), .result ⟨3, 4⟩ none]])] none,
        .result at0 (some (.method at0 (name "x") (ident "upper") []))] }]]⟩

/-- The assignment behind the `return` makes `x` a local of which nothing is known. -/
theorem dead_code_irrelevant_widening :
    ((unreachable (resolve ⟨Catalog.standard.libraries⟩ ⟨[0]⟩ widening).2).map Diagnostic.span).Perm
      [⟨1, 2⟩, ⟨3, 4⟩] ∧
    ∃ m, (resolve ⟨Catalog.standard.libraries⟩ ⟨[0]⟩ widening).1.methods[0]? = some m ∧
      EndsAlike
        (invoke (resolve ⟨Catalog.standard.libraries⟩ ⟨[0]⟩ widening).1 0 0 0
          (filled m [.str "a"]) {})
        (invoke (resolve ⟨Catalog.standard.libraries⟩ ⟨[0]⟩ widening.pruned).1 0 0 0
          (filled m [.str "a"]) {}) := by
  obtain ⟨hreports, -, hruns⟩ :=
    dead_code_irrelevant (apart_standard fun _ h => h) ⟨[0]⟩ widening
  refine ⟨hreports.map Diagnostic.span, ?_⟩
  obtain ⟨m, hm⟩ : ∃ m, (resolve ⟨Catalog.standard.libraries⟩ ⟨[0]⟩ widening).1.methods[0]? = some m :=
    Option.isSome_iff_exists.mp (by decide +kernel)
  exact ⟨m, hm, hruns (by unfold Clean; decide +kernel) (by unfold Clean; decide +kernel) hm
    [.str "a"] 0 0 {}⟩

end Machine

end ReportTemplate
