import ReportTemplate.Proofs.Syntax.Calls

/-!
# ReportTemplate.Proofs.Syntax.Occurrences — what a name stands for

A name can stand for a local where it is a variable, the receiver of a call, the callee of a plain call,
or the target of an assignment.  A `let` captures the free occurrences of its name in the statements
behind it in its block, and a loop those of its binding in the loop body: such an occurrence stands for the
innermost and latest declaration of its name, and a free one for nothing that is declared in the tree.
-/

namespace ReportTemplate.Syntax

/-- What a name is at a place. -/
inductive Role where
  | variable
  /-- The receiver of a method call, which can name a class as well. -/
  | receiver
  | callee
  /-- The target of an assignment. -/
  | target
deriving DecidableEq, Repr

/-- A name at a place where it can stand for a local. -/
structure Occurrence where
  role : Role
  name : String
  span : Span
deriving DecidableEq, Repr

namespace Occurrence

/-- The name is used, and not only assigned to. -/
def isUse (o : Occurrence) : Bool := o.role ≠ .target

/-- The occurrences that a declaration of a name does not capture. -/
def outside (name : String) (os : List Occurrence) : List Occurrence := os.filter fun o => o.name ≠ name

/-- A name is used where it occurs free. -/
def isUsed (name : String) (os : List Occurrence) : Bool := os.any fun o => o.isUse && o.name = name

end Occurrence

open Occurrence (outside isUsed)

/-! ### Expressions -/

mutual

/-- The names in an expression, in the order in which it is evaluated. -/
def Expr.names : Expr → List Occurrence
  | .literal _ _ => []
  | .ident span name => [⟨.variable, name, span⟩]
  | .list _ items => Expr.allNames items
  | .unary _ _ operand => operand.names
  | .binary _ _ left right => left.names ++ right.names
  | .call _ callee args => Expr.allNames args ++ [⟨.callee, callee.text, callee.span⟩]
  | .method _ (.ident span name) _ args => ⟨.receiver, name, span⟩ :: Expr.allNames args
  | .method _ receiver _ args => receiver.names ++ Expr.allNames args
  | .index _ target place => target.names ++ place.names

def Expr.allNames : List Expr → List Occurrence
  | [] => []
  | e :: es => e.names ++ Expr.allNames es

end

/-! ### Statements -/

/-- The names in statements behind another one that it does not capture. -/
def Stmt.outside : Stmt → List Occurrence → List Occurrence
  | .declare _ name _, os => Occurrence.outside name.text os
  | _, os => os

mutual

/-- The names in a statement that are not captured inside it. -/
def Stmt.free : Stmt → List Occurrence
  | .declare _ _ value => value.names
  | .assign _ name value => value.names ++ [⟨.target, name.text, name.span⟩]
  | .expr _ value => value.names
  | .branch _ branches otherwise => Stmt.armsFree branches ++ Stmt.otherwiseFree otherwise
  | .loop _ condition body => condition.names ++ Stmt.allFree body
  | .forEach _ binding items body => items.names ++ Occurrence.outside binding.text (Stmt.allFree body)
  | .forRange _ binding start stop body =>
    start.names ++ (stop.names ++ Occurrence.outside binding.text (Stmt.allFree body))
  | .result _ none => []
  | .result _ (some value) => value.names

/-- The names in a block that are not captured inside it. -/
def Stmt.allFree : List Stmt → List Occurrence
  | [] => []
  | s :: ss => s.free ++ s.outside (Stmt.allFree ss)

def Stmt.armsFree : List (Expr × List Stmt) → List Occurrence
  | [] => []
  | (condition, body) :: rest => condition.names ++ (Stmt.allFree body ++ Stmt.armsFree rest)

def Stmt.otherwiseFree : Option (List Stmt) → List Occurrence
  | none => []
  | some body => Stmt.allFree body

end

/-! ### Declarations that are never used -/

/-- A declared local: whether it is to be used, and whether it is. -/
structure Binding where
  name : Ident
  watched : Bool
  used : Bool
deriving Repr

/-- A `let` is to be used unless its name begins with an underscore, and a name in the statements behind it
that it captures uses it. -/
def Stmt.bindings : Stmt → List Occurrence → List Binding
  | .declare _ name _, os => [⟨name, !name.text.startsWith "_", isUsed name.text os⟩]
  | _, _ => []

/-- The `let`s of a block, the blocks inside it apart. -/
def Stmt.allBindings : List Stmt → List Binding
  | [] => []
  | s :: ss => s.bindings (Stmt.allFree ss) ++ Stmt.allBindings ss

/-- The declarations that are to be used and are not. -/
def Binding.idle (bs : List Binding) : List Ident :=
  (bs.filter fun b => b.watched && !b.used).map Binding.name

mutual

/-- The `let`s in the blocks inside a statement that are never used. -/
def Stmt.idle : Stmt → List Ident
  | .branch _ branches otherwise => Stmt.armsIdle branches ++ Stmt.otherwiseIdle otherwise
  | .loop _ _ body | .forEach _ _ _ body | .forRange _ _ _ _ body =>
    Stmt.innerIdle body ++ Binding.idle (Stmt.allBindings body)
  | _ => []

/-- The `let`s that are never used in the blocks inside the statements of a block. -/
def Stmt.innerIdle : List Stmt → List Ident
  | [] => []
  | s :: ss => s.idle ++ Stmt.innerIdle ss

def Stmt.armsIdle : List (Expr × List Stmt) → List Ident
  | [] => []
  | (_, body) :: rest =>
    Stmt.innerIdle body ++ Binding.idle (Stmt.allBindings body) ++ Stmt.armsIdle rest

def Stmt.otherwiseIdle : Option (List Stmt) → List Ident
  | none => []
  | some body => Stmt.innerIdle body ++ Binding.idle (Stmt.allBindings body)

end

/-- The `let`s of a block that are never used, those of the blocks inside it first. -/
def Stmt.allIdle (ss : List Stmt) : List Ident := Stmt.innerIdle ss ++ Binding.idle (Stmt.allBindings ss)

/-- `let x = null; let x = x; if x { let _y = z; let w = null; w = null; }` -/
example :
    let at0 : Span := ⟨0, 0⟩
    let null : Expr := .literal at0 .null
    let body : List Stmt := [.declare at0 ⟨"x", at0⟩ null, .declare at0 ⟨"x", at0⟩ (.ident at0 "x"),
      .branch at0 [(.ident at0 "x", [.declare at0 ⟨"_y", at0⟩ (.ident at0 "z"),
        .declare at0 ⟨"w", at0⟩ null, .assign at0 ⟨"w", at0⟩ null])] none]
    (Stmt.allFree body).map Occurrence.name = ["z"] ∧ (Stmt.allIdle body).map Ident.text = ["w"] := by
  decide +kernel

/-! ### Methods and classes -/

/-- The names in a method that stand for none of its locals. -/
def Method.free (m : Method) : List Occurrence :=
  m.params.foldr (fun p os => outside p.name.text os) (Stmt.allFree m.body)

/-- The methods that do not repeat the name of one in front or one that was seen. -/
def Method.firsts (seen : List String) : List Method → List Method
  | [] => []
  | m :: ms =>
    if m.name.text ∈ seen then Method.firsts seen ms
    else m :: Method.firsts (m.name.text :: seen) ms

mutual

/-- The methods of a class that do not repeat an earlier name of it, and those of the classes inside. -/
def Class.firstMethods : Class → List Method
  | .mk _ _ members =>
    Method.firsts [] (members.filterMap Sum.getLeft?) ++ Class.nestedFirstMethods members

def Class.nestedFirstMethods : List (Method ⊕ Class) → List Method
  | [] => []
  | .inl _ :: members => Class.nestedFirstMethods members
  | .inr c :: members => c.firstMethods ++ Class.nestedFirstMethods members

end

/-- The methods of a source that do not repeat an earlier name of their class. -/
def File.firstMethods (f : File) : List Method := f.classes.flatMap Class.firstMethods

mutual

/-- The names of a class and of those inside it. -/
def Class.names : Class → List String
  | .mk _ name members => name.text :: Class.nestedNames members

def Class.nestedNames : List (Method ⊕ Class) → List String
  | [] => []
  | .inl _ :: members => Class.nestedNames members
  | .inr c :: members => c.names ++ Class.nestedNames members

end

/-- The names of the classes of a source. -/
def File.classNames (f : File) : List String := f.classes.flatMap Class.names

end ReportTemplate.Syntax
