import ReportTemplate.Syntax

/-!
# ReportTemplate.Proofs.Syntax.Elements — the nodes of a source

An element is a node of the tree that has a span: a class, a method, a statement, an expression, a type or
a name.  The parts of an element are the elements directly inside it, in the order of the source.
-/

namespace ReportTemplate.Syntax

/-- A node with a span. -/
inductive Element where
  | classDecl (c : Class)
  | method (m : Method)
  | stmt (s : Stmt)
  | expr (e : Expr)
  | type (t : TypeExpr)
  | name (n : Ident)

namespace Element

def span : Element → Span
  | classDecl c => c.span
  | method m => m.span
  | stmt s => s.span
  | expr e => e.span
  | type t => t.span
  | name n => n.span

/-- What stands directly inside a type. -/
def ofType : TypeExpr → List Element
  | .named _ _ => []
  | .callback _ params => params.map type

/-- What stands directly inside an expression. -/
def ofExpr : Expr → List Element
  | .literal _ _ | .ident _ _ => []
  | .list _ items => items.map expr
  | .unary _ _ operand => [expr operand]
  | .binary _ _ left right => [expr left, expr right]
  | .call _ callee args => name callee :: args.map expr
  | .method _ receiver callee args => expr receiver :: name callee :: args.map expr
  | .index _ target place => [expr target, expr place]

/-- The condition of an arm and the statements that it guards. -/
def ofArm (arm : Expr × List Stmt) : List Element := expr arm.1 :: arm.2.map stmt

/-- What stands directly inside a statement. -/
def ofStmt : Stmt → List Element
  | .declare _ binding value | .assign _ binding value => [name binding, expr value]
  | .expr _ value => [expr value]
  | .branch _ arms otherwise => arms.flatMap ofArm ++ otherwise.toList.flatMap (List.map stmt)
  | .loop _ condition body => ofArm (condition, body)
  | .forEach _ binding items body => name binding :: expr items :: body.map stmt
  | .forRange _ binding start stop body =>
    name binding :: expr start :: expr stop :: body.map stmt
  | .result _ value => value.toList.map expr

def ofParam (p : Param) : List Element := [name p.name, type p.type]

/-- What stands directly inside a method: the parts of a parameter count as parts of the method. -/
def ofMethod (m : Method) : List Element :=
  name m.name :: (m.params.flatMap ofParam ++ (m.returns.toList.map type ++ m.body.map stmt))

def ofMember : Method ⊕ Class → Element := Sum.elim method classDecl

/-- What stands directly inside a class. -/
def ofClass (c : Class) : List Element := name c.name :: c.members.map ofMember

/-- The elements directly inside an element, in the order of the source. -/
def parts : Element → List Element
  | classDecl c => ofClass c
  | method m => ofMethod m
  | stmt s => ofStmt s
  | expr e => ofExpr e
  | type t => ofType t
  | name _ => []

end Element

/-- The element stands somewhere in the source. -/
inductive File.Has (f : File) : Element → Prop
  | classDecl {c : Class} (mem : c ∈ f.classes) : Has f (.classDecl c)
  | part {x y : Element} (outer : Has f x) (mem : y ∈ x.parts) : Has f y

end ReportTemplate.Syntax
