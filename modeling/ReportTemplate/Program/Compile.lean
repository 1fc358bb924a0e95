import ReportTemplate.Program.Resolution
import ReportTemplate.Syntax.Parser

/-!
# ReportTemplate.Program.Compile — from source to program

A source compiles when it can be read and nothing in it fails under the warning policy.  What is
reported is ordered by place.
-/

namespace ReportTemplate

/-- A program together with the warnings that did not fail it. -/
structure Compiled where
  program : Program
  warnings : List Diagnostic

namespace Program

/-- Diagnostics in the order of their places; those at one place keep their order. -/
def byPlace (ds : List Diagnostic) : List Diagnostic :=
  ds.mergeSort fun a b => a.span.start ≤ b.span.start

/-- The program of a source that has been read. -/
def ofFile (refs : ReferenceSet) (policy : WarningPolicy) (source : List Char)
    (file : Syntax.File) : Except (List Diagnostic) Compiled :=
  let (program, found) := resolve refs (LineIndex.ofSource source) file
  let found := byPlace (found.map policy.apply)
  if found.any Diagnostic.isFailure then .error found else .ok ⟨program, found⟩

/-- The program of a source, or what stands against it. -/
def compile (refs : ReferenceSet) (policy : WarningPolicy) (source : List Char) :
    Except (List Diagnostic) Compiled :=
  match Syntax.parse source with
  | .error found => .error found
  | .ok file => ofFile refs policy source file

/-- What a compilation reports: all that is found in a source that it refuses, else the warnings. -/
def reports : Except (List Diagnostic) Compiled → List Diagnostic
  | .error found => found
  | .ok c => c.warnings

end Program

end ReportTemplate
