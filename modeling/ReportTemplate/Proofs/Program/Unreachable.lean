import Mathlib.Data.List.Perm.Basic
import ReportTemplate.Proofs.Program.ScopeReports
import ReportTemplate.Proofs.Syntax.Pruned

/-!
# ReportTemplate.Proofs.Program.Unreachable — what is reported about code that is not reached

`Flags ss x` says of a computation in the scope of a method that it reports the statements `ss` as not
reached, each of them once.  Each block of a method is reported at the first statement behind its first
`return`, whatever else is wrong with the source.
-/

namespace ReportTemplate.Program

open Syntax.Stmt (behindReturn?)

/-- The reports about statements that are not reached. -/
def unreachable (ds : List Diagnostic) : List Diagnostic := ds.filter fun d => d.code = .unreachableCode

/-- The report about the first statement behind a `return`. -/
def unreachableStatement (s : Syntax.Stmt) : Diagnostic :=
  ⟨.unreachableCode, "unreachable statement", s.span, [], false⟩

@[simp] theorem unreachable_append (ds es : List Diagnostic) :
    unreachable (ds ++ es) = unreachable ds ++ unreachable es := List.filter_append ..

namespace Resolve

/-- The computation reports that some statements are not reached. -/
def Flags {α : Type} (ss : List Syntax.Stmt) (x : Resolve α) : Prop :=
  ∀ σ, (unreachable (x σ).2.found).Perm (unreachable σ.found ++ ss.map unreachableStatement)

namespace Flags

variable {α β : Type} {ss ts : List Syntax.Stmt} {x : Resolve α}

theorem pure (a : α) : Flags [] (Pure.pure a) := fun σ => by
  rw [List.map_nil, List.append_nil]
  exact .refl _

theorem bind {f : α → Resolve β} (hx : Flags ss x) (hf : ∀ a, Flags ts (f a)) :
    Flags (ss ++ ts) (x >>= f) := by
  intro σ
  refine (hf (x σ).1 (x σ).2).trans ?_
  rw [List.map_append, ← List.append_assoc]
  exact (hx σ).append_right _

/-- A value is put together at the end. -/
theorem map {f : α → Resolve β} (hx : Flags ss x) (hf : ∀ a, Flags [] (f a)) :
    Flags ss (x >>= f) := by
  have h := hx.bind hf
  rwa [List.append_nil] at h

theorem perm (hx : Flags ss x) (h : ss.Perm ts) : Flags ts x :=
  fun σ => (hx σ).trans ((h.map _).append_left _)

/-- A computation without such a report. -/
theorem of_preserves (h : ∀ ds, Preserves (fun σ : Scope => unreachable σ.found = ds) x) :
    Flags [] x := by
  intro σ
  rw [h _ σ rfl, List.map_nil, List.append_nil]

end Flags

/-! ### Reports about something else -/

section

variable {ds : List Diagnostic}

theorem preserves_report_other {code : Diagnostic.Code} (hcode : code ≠ .unreachableCode)
    (message : String) (span : Span) :
    Preserves (fun σ => unreachable σ.found = ds) (report code message span) := by
  refine .change fun σ hσ => ?_
  show unreachable (σ.found ++ [_]) = ds
  rw [unreachable_append, hσ]
  simp [unreachable, hcode]

/-- The invariant of what resolves an expression. -/
theorem usesKeep_unreachable :
    UsesKeep (fun _ => True) (fun σ => unreachable σ.found = ds) where
  use _ := .change fun _ hσ => hσ
  name span _ message := preserves_report_other (by decide) message span
  call span _ code hcode message := by
    refine preserves_report_other ?_ message span
    rintro rfl
    exact absurd hcode (by decide)

theorem preserves_reportUnused_other (slots : List Slot) :
    Preserves (fun σ => unreachable σ.found = ds) (reportUnused slots) := by
  induction slots with
  | nil => exact .pure ()
  | cons slot slots ih =>
    refine .get_bind fun σ _ => ?_
    cases σ.locals[slot]? with
    | none => exact ih
    | some l =>
      dsimp only
      split
      · exact (preserves_report_other (by decide) _ _).bind fun _ => ih
      · exact ih

end

section

variable (S : Surroundings)

theorem flags_expr (e : Syntax.Expr) : Flags [] (expr S e) :=
  .of_preserves fun _ =>
    preserves_expr S usesKeep_unreachable e (Syntax.Expr.spans_of_forall (fun _ => trivial) e)

theorem flags_declare (name : String) (ty : Ty) (span : Span) (watched : Bool) :
    Flags [] (declare name ty span watched) := by
  refine .of_preserves fun _ => .get_bind fun _ _ => (Preserves.change fun σ hσ => ?_).bind
    fun _ => .pure _
  exact hσ

theorem flags_assign (line : Nat) (name : Syntax.Ident) (value : Expr) (ty : Ty) :
    Flags [] (assign line name value ty) := by
  refine .of_preserves fun ds => (preserves_lookup name.text).bind fun found => ?_
  split
  next slot old =>
    have hchange : Preserves (fun σ : Scope => unreachable σ.found = ds)
        (change slot fun l => { l with ty := .any }) := .change fun _ hσ => hσ
    split
    · exact hchange.bind fun _ => .pure _
    · exact .pure _
  next => exact (preserves_report_other (by decide) _ _).bind fun _ => .pure _

theorem Flags.inScope {α : Type} {ss : List Syntax.Stmt} {x : Resolve α} (hx : Flags ss x) :
    Flags ss (inScope x) := by
  have hclose (outer : List (String × Slot)) : Flags [] (close outer) :=
    .of_preserves fun _ => .get_bind fun _ _ => (preserves_reportUnused_other _).bind fun _ =>
      .change fun _ hσ => hσ
  intro σ
  exact (hx.map fun _ => (hclose σ.visible).map fun _ => .pure _) σ

/-! ### Statements -/

/-- The statement of a block at which code that is not reached is reported from a place on. -/
def behind? : Reached → List Syntax.Stmt → Option Syntax.Stmt
  | .open, ss => behindReturn? ss
  | .returned, ss => ss.head?
  | .reported, _ => none

/-- The first statements behind a `return` in some blocks. -/
def dead (blocks : List (List Syntax.Stmt)) : List Syntax.Stmt := blocks.filterMap behindReturn?

@[simp] theorem dead_append (bs cs : List (List Syntax.Stmt)) : dead (bs ++ cs) = dead bs ++ dead cs :=
  List.filterMap_append

theorem dead_cons (body : List Syntax.Stmt) (blocks : List (List Syntax.Stmt)) :
    dead (body :: blocks) = (behind? .open body).toList ++ dead blocks := by
  cases h : behindReturn? body <;> simp [dead, behind?, h]

/-- A statement of a block that has been reached so far is reported, or it is not. -/
theorem flags_reach (reached : Reached) (s : Syntax.Stmt) (ss : List Syntax.Stmt) {α : Type}
    {ts : List Syntax.Stmt} {f : Reached → Resolve α}
    (hf : ∀ reached, Flags ((behind? (reached.after s) ss).toList ++ ts) (f reached)) :
    Flags ((behind? reached (s :: ss)).toList ++ ts) (reach reached s.span >>= f) := by
  cases reached with
  | «open» =>
    have hopen : behind? (Reached.open.after s) ss = behind? .open (s :: ss) := by
      cases s <;> simp [behind?, Reached.after, behindReturn?, Syntax.Stmt.isResult]
    exact hopen ▸ hf .open
  | returned =>
    have hafter : Reached.reported.after s = .reported := by cases s <;> rfl
    have hrest := hf .reported
    rw [hafter] at hrest
    have hreport : Flags [s] (report .unreachableCode "unreachable statement" s.span) := by
      intro σ
      show (unreachable (σ.found ++ [unreachableStatement s])).Perm _
      rw [unreachable_append]
      exact .refl _
    exact hreport.bind fun _ => hrest
  | reported =>
    have hafter : Reached.reported.after s = .reported := by cases s <;> rfl
    have hrest := hf .reported
    rw [hafter] at hrest
    exact hrest

mutual

theorem flags_stmt : ∀ s : Syntax.Stmt, Flags (dead s.blocks) (stmt S s)
  | .declare _ name value => (flags_expr S value).bind fun _ =>
    (flags_declare name.text _ _ _).map fun _ => .pure _
  | .assign _ name value => (flags_expr S value).bind fun _ => flags_assign _ name _ _
  | .expr _ value => (flags_expr S value).map fun _ => .pure _
  | .branch _ branches otherwise => by
    rw [Syntax.Stmt.blocks, dead_append]
    exact (flags_arms branches).bind fun _ => (flags_otherwiseArm otherwise).map fun _ => .pure _
  | .loop _ condition body => (flags_expr S condition).bind fun _ =>
    (flags_block body).inScope.map fun _ => .pure _
  | .forEach _ binding items body => (flags_expr S items).bind fun _ =>
    (flags_binding binding _ body).map fun _ => .pure _
  | .forRange _ binding start stop body => (flags_expr S start).bind fun _ =>
    (flags_expr S stop).bind fun _ => (flags_binding binding _ body).map fun _ => .pure _
  | .result _ none => .pure _
  | .result _ (some value) => (flags_expr S value).map fun _ => .pure _

theorem flags_stmts : ∀ (reached : Reached) (ss : List Syntax.Stmt),
    Flags ((behind? reached ss).toList ++ dead (Syntax.Stmt.innerBlocks ss)) (stmts S reached ss)
  | reached, [] => by
    cases reached <;> exact .pure _
  | reached, s :: ss => by
    refine flags_reach reached s ss fun reached => ?_
    have hrest (t : Stmt) : Flags
        ((behind? (reached.after s) ss).toList ++ dead (Syntax.Stmt.innerBlocks ss)) (do
          let ts ← stmts S (reached.after s) ss
          return t :: ts) := (flags_stmts (reached.after s) ss).map fun _ => .pure _
    rw [Syntax.Stmt.innerBlocks, dead_append]
    exact ((flags_stmt s).bind hrest).perm (List.perm_append_comm_assoc ..)

theorem flags_block (body : List Syntax.Stmt) :
    Flags (dead (body :: Syntax.Stmt.innerBlocks body)) (stmts S .open body) := by
  rw [dead_cons]
  exact flags_stmts .open body

theorem flags_binding (binding : Syntax.Ident) (ty : Ty) (body : List Syntax.Stmt) :
    Flags (dead (body :: Syntax.Stmt.innerBlocks body)) (inScope do
      let slot ← declare binding.text ty binding.span false
      let body ← inScope (stmts S .open body)
      return (slot, body)) :=
  ((flags_declare binding.text ty binding.span false).bind fun _ =>
    (flags_block body).inScope.map fun _ => .pure _).inScope

theorem flags_arms : ∀ bs : List (Syntax.Expr × List Syntax.Stmt),
    Flags (dead (Syntax.Stmt.armsBlocks bs)) (arms S bs)
  | [] => .pure _
  | (condition, body) :: rest => by
    rw [Syntax.Stmt.armsBlocks, dead_append]
    exact (flags_expr S condition).bind fun _ => (flags_block body).inScope.bind fun _ =>
      (flags_arms rest).map fun _ => .pure _

theorem flags_otherwiseArm : ∀ o : Option (List Syntax.Stmt),
    Flags (dead (Syntax.Stmt.otherwiseBlocks o)) (otherwiseArm S o)
  | none => .pure _
  | some body => (flags_block body).inScope.map fun _ => .pure _

end

theorem flags_params (ps : List ((String × Ty) × Syntax.Param)) : Flags [] (params ps) := by
  induction ps with
  | nil => exact .pure ()
  | cons p ps ih => exact (flags_declare _ _ _ _).bind fun _ => ih

theorem flags_body (m : Pending) : Flags (dead m.declaration.blocks) (body S m) :=
  (flags_params _).bind fun _ => (flags_block S m.declaration.body).inScope

end

end Resolve

/-! ### Sources -/

/-- **Code that is not reached** is reported once for each block of a declared method, blocks behind a
`return` included, in which a statement stands behind the first `return`: at the first such statement.
Whatever else is wrong with the source plays no part in it. -/
theorem unreachable_resolve (refs : ReferenceSet) (lines : LineIndex) (file : Syntax.File) :
    (unreachable (resolve refs lines file).2).Perm
      (((file.firstMethods.flatMap Syntax.Method.blocks).filterMap behindReturn?).map
        unreachableStatement) := by
  have h := adds_declarations refs file
  obtain ⟨new, hnew, hfirst, -⟩ := h.methods
  have hsilent : unreachable (declarations refs file).found = [] :=
    h.filter_found (p := fun code => code = .unreachableCode) (by decide)
  have hfound : (resolve refs lines file).2 = (declarations refs file).found ++
      new.flatMap fun m => (resolveMethod refs lines (declarations refs file) m).2 := by
    change _ ++ ((declarations refs file).methods.map _).flatMap Prod.snd = _
    rw [hnew, List.flatMap_map]
    rfl
  rw [hfound, unreachable_append, hsilent, List.nil_append, ← hfirst, List.flatMap_map,
    List.filterMap_flatMap, List.map_flatMap, unreachable, List.filter_flatMap]
  refine List.Perm.flatMap_left _ fun m _ => ?_
  have hbody := Resolve.flags_body ⟨refs, lines, declarations refs file, m.owner⟩ m {}
  exact hbody

end ReportTemplate.Program
