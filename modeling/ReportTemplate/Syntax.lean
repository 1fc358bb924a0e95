import ReportTemplate.Number.Binary64
import ReportTemplate.Span

/-!
# ReportTemplate.Syntax — the syntax tree of a template

Every node carries the span of the source it was read from.  Parentheses leave no node.
-/

namespace ReportTemplate.Syntax

/-- A name where it stands. -/
structure Ident where
  text : String
  span : Span
deriving DecidableEq, Repr

inductive TypeExpr where
  | named (span : Span) (name : String)
  | callback (span : Span) (params : List TypeExpr)
deriving Repr

inductive Literal where
  | null
  | bool (b : Bool)
  | int (n : Int64)
  | float (x : Number.Binary64)
  | string (s : String)
deriving DecidableEq, Repr

inductive UnaryOp where
  | negate
  | not
deriving DecidableEq, Repr

inductive BinaryOp where
  | add | sub | mul | div | rem
  | equal | notEqual | less | lessEqual | greater | greaterEqual
  | and | or
deriving DecidableEq, Repr

def UnaryOp.text : UnaryOp → String
  | negate => "-"
  | not => "!"

def BinaryOp.text : BinaryOp → String
  | add => "+"
  | sub => "-"
  | mul => "*"
  | div => "/"
  | rem => "%"
  | equal => "=="
  | notEqual => "!="
  | less => "<"
  | lessEqual => "<="
  | greater => ">"
  | greaterEqual => ">="
  | and => "&&"
  | or => "||"

inductive Expr where
  | literal (span : Span) (value : Literal)
  | ident (span : Span) (name : String)
  | list (span : Span) (items : List Expr)
  | unary (span : Span) (op : UnaryOp) (operand : Expr)
  | binary (span : Span) (op : BinaryOp) (left right : Expr)
  /-- `callee(args)` -/
  | call (span : Span) (callee : Ident) (args : List Expr)
  /-- `receiver.method(args)`, which `Type.method(args)` is too. -/
  | method (span : Span) (receiver : Expr) (method : Ident) (args : List Expr)
  | index (span : Span) (target index : Expr)
deriving Repr

inductive Stmt where
  /-- `let name = value;` -/
  | declare (span : Span) (name : Ident) (value : Expr)
  /-- `name = value;` -/
  | assign (span : Span) (name : Ident) (value : Expr)
  | expr (span : Span) (value : Expr)
  | branch (span : Span) (branches : List (Expr × List Stmt)) (otherwise : Option (List Stmt))
  | loop (span : Span) (condition : Expr) (body : List Stmt)
  /-- `for binding in items { body }` -/
  | forEach (span : Span) (binding : Ident) (items : Expr) (body : List Stmt)
  /-- `for binding in start..stop { body }`, the end left out. -/
  | forRange (span : Span) (binding : Ident) (start stop : Expr) (body : List Stmt)
  | result (span : Span) (value : Option Expr)
deriving Repr

structure Param where
  name : Ident
  type : TypeExpr
deriving Repr

structure Method where
  span : Span
  isStatic : Bool
  name : Ident
  params : List Param
  returns : Option TypeExpr
  body : List Stmt
deriving Repr

/-- A class with the methods and classes inside it, in the order of the source. -/
inductive Class where
  | mk (span : Span) (name : Ident) (members : List (Method ⊕ Class))

/-- A source is a list of classes. -/
structure File where
  classes : List Class

def TypeExpr.span : TypeExpr → Span
  | named span _ | callback span _ => span

mutual

/-- The type as messages write it. -/
def TypeExpr.text : TypeExpr → String
  | named _ name => name
  | callback _ params => "fn(" ++ ", ".intercalate (TypeExpr.texts params) ++ ")"

/-- The types of a list as messages write them. -/
def TypeExpr.texts : List TypeExpr → List String
  | [] => []
  | t :: ts => t.text :: TypeExpr.texts ts

end

def Expr.span : Expr → Span
  | literal span _ | ident span _ | list span _ | unary span _ _ | binary span _ _ _
  | call span _ _ | method span _ _ _ | index span _ _ => span

def Stmt.span : Stmt → Span
  | declare span _ _ | assign span _ _ | expr span _ | branch span _ _ | loop span _ _
  | forEach span _ _ _ | forRange span _ _ _ _ | result span _ => span

namespace Class

def span : Class → Span
  | mk span _ _ => span

def name : Class → Ident
  | mk _ name _ => name

def members : Class → List (Method ⊕ Class)
  | mk _ _ members => members

/-- The methods declared directly in the class. -/
def methods (c : Class) : List Method := c.members.filterMap Sum.getLeft?

/-- The classes declared directly in the class. -/
def nested (c : Class) : List Class := c.members.filterMap Sum.getRight?

end Class

end ReportTemplate.Syntax
