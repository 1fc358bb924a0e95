import ReportTemplate.Proofs.Machine.Appends
import ReportTemplate.Proofs.Machine.Raised

/-!
# ReportTemplate.Proofs.Machine.Ends — runs without loops on conditions end

Only a loop on a condition can use up its steps.  Calls are nested at most so deep, and a loop over
values goes through values that are there when it begins, so a program without loops on conditions
needs no steps at all: each call ends with a value or a failure.
-/

namespace ReportTemplate

namespace Program

mutual

/-- There is no loop on a condition in a statement. -/
def Stmt.loopFree : Stmt → Bool
  | .store _ _ _ | .expr _ _ | .result _ _ => true
  | .branch _ branches otherwise => Stmt.armsLoopFree branches && Stmt.otherwiseLoopFree otherwise
  | .loop _ _ _ => false
  | .forEach _ _ _ body | .forRange _ _ _ _ body => Stmt.allLoopFree body

def Stmt.allLoopFree : List Stmt → Bool
  | [] => true
  | s :: ss => s.loopFree && Stmt.allLoopFree ss

def Stmt.armsLoopFree : List (Expr × List Stmt) → Bool
  | [] => true
  | (_, body) :: rest => Stmt.allLoopFree body && Stmt.armsLoopFree rest

def Stmt.otherwiseLoopFree : Option (List Stmt) → Bool
  | none => true
  | some body => Stmt.allLoopFree body

end

/-- There is no loop on a condition in the methods of a program. -/
def loopFree (p : Program) : Bool := p.methods.all fun m => Stmt.allLoopFree m.body

theorem Stmt.allLoopFree_iff {ss : List Stmt} :
    Stmt.allLoopFree ss = true ↔ ∀ s ∈ ss, s.loopFree = true := by
  induction ss with
  | nil => simp [Stmt.allLoopFree]
  | cons s ss ih => simp [Stmt.allLoopFree, ih]

theorem Stmt.armsLoopFree_iff {bs : List (Expr × List Stmt)} :
    Stmt.armsLoopFree bs = true ↔ ∀ arm ∈ bs, ∀ s ∈ arm.2, s.loopFree = true := by
  induction bs with
  | nil => simp [Stmt.armsLoopFree]
  | cons arm bs ih => simp [Stmt.armsLoopFree, Stmt.allLoopFree_iff, ih]

end Program

namespace Machine

open Program (Stmt MethodId Method Pending)

/-- There is no loop on a condition in what a run works on. -/
def Node.loopFree : Node → Bool
  | .stmt s => s.loopFree
  | .value _ | .condition _ | .bound _ => true

section

variable {f : Frame} {n n' : Node} {s s' : State}

theorem Part.loopFree (h : Part f n s n' s') (hn : n.loopFree = true) : n'.loopFree = true := by
  cases h with
  | taken comes _ inner =>
    have harms := (Bool.and_eq_true_iff.mp hn).1
    exact Program.Stmt.armsLoopFree_iff.mp harms _ comes.mem _ inner.mem
  | otherwise _ inner =>
    exact Program.Stmt.allLoopFree_iff.mp (Bool.and_eq_true_iff.mp hn).2 _ inner.mem
  | loopBody => cases hn
  | eachBody _ _ _ _ inner => exact Program.Stmt.allLoopFree_iff.mp hn _ inner.mem
  | rangeBody _ _ _ _ inner => exact Program.Stmt.allLoopFree_iff.mp hn _ inner.mem
  | _ => rfl

theorem Leads.loopFree (h : Leads f n s n' s') (hn : n.loopFree = true) : n'.loopFree = true := by
  induction h with
  | refl => exact hn
  | head part _ ih => exact ih (part.loopFree hn)

end

section

variable {p : Program} (hfree : p.loopFree = true)

include hfree

/-- A call without loops on conditions does not run out of steps. -/
theorem inTime_of_loopFree (steps depth : Nat) (id : MethodId) (args : List Value) (w : World) :
    InTime (invoke p steps depth id args w) := by
  intro w' hend
  have hsound : Halt.outOfSteps ≠ .broken := nofun
  obtain ⟨m, n, hraised⟩ := raised_of_invoke hsound depth hend
  obtain ⟨d, id', args', start, s, t, hm, ⟨x, u, hcomes, hleads⟩, hstops⟩ := hraised.innermost
  have hbody := List.all_eq_true.mp hfree m (List.mem_of_getElem? hm)
  have hn := hleads.loopFree (Program.Stmt.allLoopFree_iff.mp hbody x hcomes.mem)
  obtain ⟨line, cond, body, rfl⟩ := hstops.loop
  cases hn

end

/-- As many arguments as a method has parameters at least: missing ones are null. -/
def filled (m : Method) (args : List Value) : List Value :=
  args ++ List.replicate (m.signature.params.length - args.length) .null

/-- **Termination**: when a source compiles to a program without loops on conditions, every call of a
method of it, on any arguments, ends with a value or a failure.  No loop needs a step for it, and more
steps change nothing. -/
theorem invoke_ends {refs : ReferenceSet} {policy : WarningPolicy} {source : List Char}
    {c : Compiled} (h : Program.compile refs policy source = .ok c)
    (hfree : c.program.loopFree = true) {id : MethodId} {m : Method}
    (hm : c.program.methods[id]? = some m) (args : List Value) (depth : Nat) (world : World) :
    ∃ r : EStateM.Result Halt World Value,
      (∀ steps, invoke c.program steps depth id (filled m args) world = r) ∧
      ((∃ v w, r = .ok v w) ∨ ∃ g w, r = .error (.failed g) w) := by
  have htime := fun steps => inTime_of_loopFree hfree steps depth id (filled m args) world
  refine ⟨invoke c.program 0 depth id (filled m args) world, fun steps => ?_, ?_⟩
  · exact (htime steps).unique (htime 0)
  · generalize hend : invoke c.program 0 depth id (filled m args) world = r
    cases r with
    | ok v w => exact .inl ⟨v, w, rfl⟩
    | error k w =>
      cases k with
      | failed g => exact .inr ⟨g, w, rfl⟩
      | outOfSteps => exact absurd hend (htime 0 w)
      | broken =>
        obtain ⟨file, -, hprogram, hclean⟩ := Program.compile_ok h
        rw [hprogram] at hm hend
        obtain ⟨m', hm', himplements⟩ := Program.implements_of_getElem? hclean hm
        have hlength : m'.signature.params.length ≤ (filled m args).length := by
          rw [← himplements.signature, filled, List.length_append, List.length_replicate]
          omega
        exact absurd hend (invoke_not_broken hclean hm' hlength 0 depth world w)

theorem counting_loopFree : ∃ c m, Program.compile countingRefs {} counting = .ok c ∧
    c.program.loopFree = true ∧ c.program.methods[0]? = some m := by
  have hfree : (Program.compile countingRefs {} counting).toOption.map
      (fun c => (c.program.loopFree, c.program.methods.length)) = some (true, 1) := by
    unfold counting
    rw [String.toList_ofList]
    decide +kernel
  cases hc : Program.compile countingRefs {} counting with
  | error found => rw [hc] at hfree; cases hfree
  | ok c =>
    rw [hc] at hfree
    obtain ⟨hloops, hlength⟩ := Prod.mk.inj (Option.some.inj hfree)
    exact ⟨c, _, rfl, hloops, List.getElem?_eq_getElem (by rw [hlength]; exact Nat.one_pos)⟩

theorem invoke_ends_counting : ∃ c m, Program.compile countingRefs {} counting = .ok c ∧
    c.program.loopFree = true ∧ c.program.methods[0]? = some m ∧
    ∃ r, ∀ steps, invoke c.program steps 255 0 (filled m [.document]) {} = r := by
  obtain ⟨c, m, hc, hfree, hm⟩ := counting_loopFree
  obtain ⟨r, hr, -⟩ := invoke_ends hc hfree hm [.document] 255 {}
  exact ⟨c, m, hc, hfree, hm, r, hr⟩

end Machine

end ReportTemplate
