import ReportTemplate.Proofs.Program.Resolves
import ReportTemplate.Proofs.Syntax.Pruned

/-!
# ReportTemplate.Proofs.Program.SameNames — where the same names are visible

An assignment changes no name, and a block takes the names with it that are declared in it.  So the same
names are visible at a place of a source and of the pruned source, whatever their slots and types are.
-/

namespace ReportTemplate

namespace Scopes

variable {α β : Type} {s : Scopes α} {t : Scopes β}

/-- The names of each scope. -/
def names (s : Scopes α) : List (List String) := s.map fun scope => scope.map Prod.fst

theorem names_leave (s : Scopes α) : s.leave.names = s.names.tail := List.map_tail ..

theorem names_declare (h : s.names = t.names) (name : String) (a : α) (b : β) :
    (s.declare name a).names = (t.declare name b).names := by
  cases s with
  | nil =>
    cases t with
    | nil => rfl
    | cons scope t => simp [names] at h
  | cons scope s =>
    cases t with
    | nil => simp [names] at h
    | cons scope' t => simp_all [names, declare]

theorem map_fst_update (name : String) (a : α) (scope : List (String × α)) :
    (update name a scope).map Prod.fst = scope.map Prod.fst := by
  induction scope with
  | nil => rfl
  | cons p scope ih =>
    unfold update
    by_cases h : name = p.1
    · simp [h]
    · simp [h, ih]

theorem names_assign (name : String) (a : α) (s : Scopes α) : (s.assign name a).names = s.names := by
  induction s with
  | nil => rfl
  | cons scope s ih =>
    unfold assign
    split
    · simp [names, map_fst_update]
    · exact congrArg (scope.map Prod.fst :: ·) ih

theorem visible_eq (s : Scopes α) : s.visible = s.names.flatten := List.map_flatten

theorem read?_none_iff (h : s.names = t.names) (name : String) :
    s.read? name = none ↔ t.read? name = none := by
  rw [read?_eq_none_iff, read?_eq_none_iff, visible_eq, visible_eq, h]

end Scopes

namespace Program

open Scoped (assignType)

/-! ### Views -/

/-- The names have slots and types. -/
def View.Balanced (v : View) : Prop := v.types.names = v.slots.names

namespace View.Balanced

variable {v : View} (h : v.Balanced)

include h

theorem enter : v.enter.Balanced := congrArg ([] :: ·) h

theorem leave : v.leave.Balanced := by
  show v.types.leave.names = v.slots.leave.names
  rw [Scopes.names_leave, Scopes.names_leave, h]

theorem declare (name : String) (ty : Ty) : (v.declare name ty).Balanced :=
  Scopes.names_declare h name ty v.size

end View.Balanced

section

variable {S T : Surroundings}

mutual

theorem ResolvesStmt.balanced {v w : View} {s : Syntax.Stmt} {t : Stmt} :
    ResolvesStmt S v s t w → v.Balanced → w.Balanced
  | .declare _, h => h.declare _ _
  | .assign _ _, h => by
    show (assignType _ _ v.types).names = v.slots.names
    unfold assignType
    split
    · exact h
    · rw [Scopes.names_assign, h]
  | .expr _, h | .leave, h | .result _, h => h
  | .branch arms last, h => last.balanced (arms.balanced h)
  | .loop _ block, h => (block.balanced h.enter).leave
  | .forEach _ block, h | .forRange _ _ block, h =>
    (block.balanced (h.enter.declare _ _).enter).leave.leave

theorem ResolvesStmts.balanced {v w : View} {ss : List Syntax.Stmt} {ts : List Stmt} :
    ResolvesStmts S v ss ts w → v.Balanced → w.Balanced
  | .nil, h => h
  | .cons head tail, h => tail.balanced (head.balanced h)

theorem ResolvesArms.balanced {v w : View} {bs : List (Syntax.Expr × List Syntax.Stmt)}
    {cs : List (Expr × List Stmt)} : ResolvesArms S v bs cs w → v.Balanced → w.Balanced
  | .nil, h => h
  | .cons _ block tail, h => tail.balanced (block.balanced h.enter).leave

theorem ResolvesOtherwise.balanced {v w : View} {o : Option (List Syntax.Stmt)}
    {p : Option (List Stmt)} : ResolvesOtherwise S v o p w → v.Balanced → w.Balanced
  | .none, h => h
  | .some block, h => (block.balanced h.enter).leave

end

/-- The same names are visible. -/
structure View.SameNames (v w : View) : Prop where
  left : v.Balanced
  right : w.Balanced
  names : w.slots.names = v.slots.names

namespace View.SameNames

variable {v w v' w' : View}

theorem enter (h : v.SameNames w) : v.enter.SameNames w.enter :=
  ⟨h.left.enter, h.right.enter, congrArg ([] :: ·) h.names⟩

theorem declare (h : v.SameNames w) (name : String) (ty ty' : Ty) :
    (v.declare name ty).SameNames (w.declare name ty') :=
  ⟨h.left.declare name ty, h.right.declare name ty', Scopes.names_declare h.names name _ _⟩

/-- Behind a block the names are those in front of it, whatever is in it. -/
theorem block (h : v.SameNames w) {ss ss' : List Syntax.Stmt} {ts ts' : List Stmt}
    (hv : ResolvesStmts S v.enter ss ts v') (hw : ResolvesStmts T w.enter ss' ts' w') :
    v'.leave.SameNames w'.leave := by
  refine ⟨(hv.balanced h.left.enter).leave, (hw.balanced h.right.enter).leave, ?_⟩
  rw [hv.extends.1.leave_slots_eq, hw.extends.1.leave_slots_eq, h.names]

/-- Behind the arms of a branch the names are those in front of them. -/
theorem arms (h : v.SameNames w) {bs bs' : List (Syntax.Expr × List Syntax.Stmt)}
    {cs cs' : List (Expr × List Stmt)} (hv : ResolvesArms S v bs cs v')
    (hw : ResolvesArms T w bs' cs' w') : v'.SameNames w' := by
  refine ⟨hv.balanced h.left, hw.balanced h.right, ?_⟩
  rw [hv.slots_eq, hw.slots_eq, h.names]

/-- A statement declares the names that it declares in the pruned source. -/
theorem behind (h : v.SameNames w) {s : Syntax.Stmt} {t u : Stmt} (hv : ResolvesStmt S v s t v')
    (hw : ResolvesStmt T w s.pruned u w') : v'.SameNames w' := by
  refine ⟨hv.balanced h.left, hw.balanced h.right, ?_⟩
  cases hv with
  | declare =>
    cases hw
    exact Scopes.names_declare h.names _ _ _
  | assign | expr | leave | result =>
    cases hw
    exact h.names
  | branch arms last =>
    cases hw with
    | branch arms' last' =>
      rw [last.slots_eq, arms.slots_eq, last'.slots_eq, arms'.slots_eq, h.names]
  | loop _ block =>
    cases hw with
    | loop _ block' => rw [block.extends.1.leave_slots_eq, block'.extends.1.leave_slots_eq, h.names]
  | forEach _ block =>
    cases hw with
    | forEach _ block' => rw [block.binding_slots, block'.binding_slots, h.names]
  | forRange _ _ block =>
    cases hw with
    | forRange _ _ block' => rw [block.binding_slots, block'.binding_slots, h.names]

end View.SameNames

end

end Program

end ReportTemplate
