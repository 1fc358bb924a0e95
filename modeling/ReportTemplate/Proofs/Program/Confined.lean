import ReportTemplate.Proofs.Machine.Confined
import ReportTemplate.Proofs.Program.InRange

/-!
# ReportTemplate.Proofs.Program.Confined — compiled programs keep a property of values

The constants of a compiled program are the literals of its source, its lists are those of the language,
and its functions are those of the libraries.  A property of values that these keep is kept by the program.
-/

namespace ReportTemplate.Program

variable {V : Value → Prop}

/-- Literals and lists have a property of values, and the functions that can be named keep it. -/
structure Provides (V : Value → Prop) (refs : ReferenceSet) : Prop where
  literal (l : Syntax.Literal) : V (Resolve.literal l).1
  list {items : List Value} (h : ∀ v ∈ items, V v) : V (.list items)
  function {l : Library} {g : Function} (hl : l ∈ refs.libraries) (hg : g ∈ l.functions) : g.Closed V

section

variable {S : Surroundings}

theorem Provides.named (hp : Provides V S.refs) {name : String} {g : Function}
    (h : S.refs.function? name = some g) : g.Closed V := by
  obtain ⟨l, hl, hg⟩ := List.mem_flatMap.mp (List.mem_of_find?_eq_some h)
  exact hp.function hl hg

theorem Provides.functionFor (hp : Provides V S.refs) (name : String) (args : List Expr) :
    ∀ g ∈ functionFor S name args, g.Closed V := fun _ hg =>
  hp.named (Option.filter_eq_some_iff.mp hg).1

mutual

theorem Resolves.closed (hp : Provides V S.refs) {v : View} :
    ∀ (e : Syntax.Expr) {e' : Expr}, Resolves S v e e' → e'.Closed V
  | .literal _ l, _, .literal => hp.literal l
  | .ident _ _, _, .ident _ => trivial
  | .list _ items, _, .list parts => ⟨fun _ _ => hp.list, Resolves.allClosed hp items parts⟩
  | .unary _ _ operand, _, .unary part => by
    have hpart := Resolves.closed hp operand part
    exact hpart
  | .binary _ _ l r, _, .binary left right => ⟨Resolves.closed hp l left, Resolves.closed hp r right⟩
  | .index _ t i, _, .index target place => ⟨Resolves.closed hp t target, Resolves.closed hp i place⟩
  | .call _ _ args, _, .callLocal parts _ => Resolves.allClosed hp args parts
  | .call _ _ args, _, .callOwn parts _ _ _ => Resolves.allClosed hp args parts
  | .call _ _ args, _, .callFunction parts _ _ found _ =>
    ⟨hp.named found, Resolves.allClosed hp args parts⟩
  | .method _ _ _ args, _, .qualified _ parts _ _ => Resolves.allClosed hp args parts
  | .method _ r _ args, _, .document _ object parts _ _ _ =>
    ⟨Resolves.closed hp r object, Resolves.allClosed hp args parts⟩
  | .method _ r method args, _, .dynamic _ object parts _ _ =>
    ⟨hp.functionFor method.text _, Resolves.closed hp r object, Resolves.allClosed hp args parts⟩
  | .method _ r _ args, _, .receiver _ object parts _ _ found _ =>
    ⟨hp.named found, Resolves.closed hp r object, Resolves.allClosed hp args parts⟩

theorem Resolves.allClosed (hp : Provides V S.refs) {v : View} :
    ∀ (es : List Syntax.Expr) {es' : List Expr},
      List.Forall₂ (Resolves S v) es es' → Expr.AllClosed V es'
  | [], _, .nil => trivial
  | e :: es, _, .cons head tail => ⟨Resolves.closed hp e head, Resolves.allClosed hp es tail⟩

end

mutual

theorem ResolvesStmt.closed (hp : Provides V S.refs) : ∀ (s : Syntax.Stmt) {v w : View} {t : Stmt},
    ResolvesStmt S v s t w → t.Closed V
  | .declare _ _ e, _, _, _, .declare value => Resolves.closed hp e value
  | .assign _ _ e, _, _, _, .assign value _ => Resolves.closed hp e value
  | .expr _ e, _, _, _, .expr value => Resolves.closed hp e value
  | .branch _ branches otherwise, _, _, _, .branch arms last =>
    ⟨ResolvesArms.closed hp branches arms, ResolvesOtherwise.closed hp otherwise last⟩
  | .loop _ cond body, _, _, _, .loop test block =>
    ⟨Resolves.closed hp cond test, ResolvesStmts.closed hp body block⟩
  | .forEach _ _ items body, _, _, _, .forEach values block =>
    ⟨Resolves.closed hp items values, ResolvesStmts.closed hp body block⟩
  | .forRange _ _ start stop body, _, _, _, .forRange first last block =>
    ⟨Resolves.closed hp start first, Resolves.closed hp stop last, ResolvesStmts.closed hp body block⟩
  | .result _ none, _, _, _, .leave => trivial
  | .result _ (some e), _, _, _, .result value => Resolves.closed hp e value

theorem ResolvesStmts.closed (hp : Provides V S.refs) : ∀ (ss : List Syntax.Stmt) {v w : View}
    {ts : List Stmt}, ResolvesStmts S v ss ts w → Stmt.AllClosed V ts
  | [], _, _, _, .nil => trivial
  | s :: ss, _, _, _, .cons head tail =>
    ⟨ResolvesStmt.closed hp s head, ResolvesStmts.closed hp ss tail⟩

theorem ResolvesArms.closed (hp : Provides V S.refs) :
    ∀ (bs : List (Syntax.Expr × List Syntax.Stmt)) {v w : View} {cs : List (Expr × List Stmt)},
      ResolvesArms S v bs cs w → Stmt.ArmsClosed V cs
  | [], _, _, _, .nil => trivial
  | (cond, body) :: bs, _, _, _, .cons test block tail =>
    ⟨Resolves.closed hp cond test, ResolvesStmts.closed hp body block, ResolvesArms.closed hp bs tail⟩

theorem ResolvesOtherwise.closed (hp : Provides V S.refs) :
    ∀ (o : Option (List Syntax.Stmt)) {v w : View} {q : Option (List Stmt)},
      ResolvesOtherwise S v o q w → Stmt.OtherwiseClosed V q
  | none, _, _, _, .none => trivial
  | some body, _, _, _, .some block => ResolvesStmts.closed hp body block

end

end

theorem compile_closed {refs : ReferenceSet} (hp : Provides V refs) {policy : WarningPolicy}
    {source : List Char} {c : Compiled} (h : compile refs policy source = .ok c) :
    c.program.Closed V := by
  obtain ⟨file, -, hprogram, hclean⟩ := compile_ok h
  rw [hprogram]
  intro m' hm'
  obtain ⟨id, hid⟩ := List.mem_iff_getElem?.mp hm'
  obtain ⟨m, -, himplements⟩ := implements_of_getElem? hclean hid
  obtain ⟨w, hbody, -⟩ := himplements.body
  exact ResolvesStmts.closed (S := ⟨refs, _, declarations refs file, m.owner⟩) hp _ hbody

end ReportTemplate.Program
