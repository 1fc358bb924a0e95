import ReportTemplate.Proofs.Grammar.Phrase
import ReportTemplate.Syntax.Parser

/-!
# ReportTemplate.Proofs.Grammar.Rules — the grammar of templates

One phrase for each construct of the language.  Binary operators have six levels, each grouped from the
left; prefix operators bind tighter, and suffixes tightest.
-/

namespace ReportTemplate.Syntax

open Phrase

namespace Grammar

/-! ### Expressions -/

def ident : Phrase Ident := .map (fun x => ⟨x.1, x.2⟩) (.spanned .name)

def expr : Phrase Expr := .rule .expr

def literal : Phrase Expr := .map (fun x => .literal x.2 x.1) (.spanned .value)

def args : Phrase (List Expr) := between .parenOpen .parenClose (.items expr)

def call : Phrase Expr := .map (fun x => .call x.2 x.1.1 x.1.2) (.spanned (.seq ident args))

def variableName : Phrase Expr := .map (fun name => .ident name.span name.text) ident

def list : Phrase Expr :=
  .map (fun x => .list x.2 x.1) (.spanned (between .bracketOpen .bracketClose (.items expr)))

/-- An expression without operators and suffixes; parentheses leave no node. -/
def operand : Phrase Expr :=
  .either literal (.either call (.either variableName (.either list
    (between .parenOpen .parenClose expr))))

def methodSuffix : Phrase Suffix :=
  .map (fun x => .method x.1 x.2) (before (symbol .dot) (.seq ident args))

def indexSuffix : Phrase Suffix :=
  .map .index (between .bracketOpen .bracketClose expr)

def suffixed : Phrase Expr :=
  .map (fun x => x.2.foldl withSuffix x.1)
    (.seq (.labelled .expression operand) (.many (.spanned (.either methodSuffix indexSuffix))))

def unaryOp : Phrase UnaryOp :=
  .either (.map (fun _ => .negate) (symbol .minus)) (.map (fun _ => .not) (symbol .bang))

def unary : Phrase Expr :=
  .map (fun x => x.1.foldr (fun op e => .unary ⟨op.2.start, e.span.stop⟩ op.1 e) x.2)
    (.seq (.many (.spanned unaryOp)) suffixed)

/-- One operator of a level. -/
def operator (o : Symbol × BinaryOp) : List (Symbol × BinaryOp) → Phrase BinaryOp
  | [] => .map (fun _ => o.2) (symbol o.1)
  | o' :: ops => .either (.map (fun _ => o.2) (symbol o.1)) (operator o' ops)

/-- Operands with operators of one level between them, grouped from the left. -/
def leftChain : List (Symbol × BinaryOp) → Phrase Expr → Phrase Expr
  | [], operand => operand
  | o :: ops, operand =>
    .map (fun x => x.2.foldl (fun l r => .binary ⟨l.span.start, r.2.span.stop⟩ r.1 l r.2) x.1)
      (.seq operand (.many (.seq (operator o ops) operand)))

/-- The levels of binary operators, the tightest first. -/
def levels : List (List (Symbol × BinaryOp)) :=
  [[(.star, .mul), (.slash, .div), (.percent, .rem)],
    [(.plus, .add), (.minus, .sub)],
    [(.lessOrEqual, .lessEqual), (.greaterOrEqual, .greaterEqual), (.less, .less),
      (.greater, .greater)],
    [(.equalsEquals, .equal), (.notEquals, .notEqual)],
    [(.andAnd, .and)],
    [(.orOr, .or)]]

def operation : Phrase Expr := levels.foldl (fun operand ops => leftChain ops operand) unary

/-! ### Types -/

def type : Phrase TypeExpr := .rule .type

def callbackType : Phrase TypeExpr :=
  .map (fun x => .callback x.2 x.1)
    (.spanned (before (keyword .fnKw) (between .parenOpen .parenClose (.items type))))

def namedType : Phrase TypeExpr := .map (fun name => .named name.span name.text) ident

/-- A name or `fn(…)`. -/
def typeBody : Phrase TypeExpr := .either callbackType namedType

/-! ### Statements -/

def block : Phrase (List Stmt) := .rule .block

def declaration : Phrase Stmt :=
  .map (fun x => .declare x.2 x.1.1 x.1.2) (.spanned
    (before (keyword .letKw) (.seq (after ident (symbol .equals)) (after expr (symbol .semicolon)))))

def assignment : Phrase Stmt :=
  .map (fun x => .assign x.2 x.1.1 x.1.2) (.spanned
    (.seq (after ident (symbol .equals)) (after expr (symbol .semicolon))))

def exprStmt : Phrase Stmt := .map (fun x => .expr x.2 x.1) (.spanned (after expr (symbol .semicolon)))

def returnStmt : Phrase Stmt :=
  .map (fun x => .result x.2 x.1) (.spanned
    (before (keyword .returnKw) (after (.optional expr) (symbol .semicolon))))

/-- A condition and the block that it guards. -/
def guard : Phrase (Expr × List Stmt) := .seq expr block

def elseIf : Phrase (Expr × List Stmt) := before (keyword .elseKw) (before (keyword .ifKw) guard)

def otherwise : Phrase (List Stmt) := before (keyword .elseKw) block

def ifStmt : Phrase Stmt :=
  .map (fun x => .branch x.2 x.1.1 x.1.2) (.spanned (.map (fun x => (x.1 :: x.2.1, x.2.2))
    (before (keyword .ifKw) (.seq guard (.seq (.many elseIf) (.optional otherwise))))))

def whileStmt : Phrase Stmt :=
  .map (fun x => .loop x.2 x.1.1 x.1.2) (.spanned (before (keyword .whileKw) guard))

/-- A loop over a range if there is an end, else over a list. -/
def forNode (span : Span) (binding : Ident) (start : Expr) (body : List Stmt) : Option Expr → Stmt
  | none => .forEach span binding start body
  | some stop => .forRange span binding start stop body

def forStmt : Phrase Stmt :=
  .map (fun x => forNode x.2 x.1.1 x.1.2.1 x.1.2.2.2 x.1.2.2.1) (.spanned
    (before (keyword .forKw) (.seq (after ident (keyword .inKw))
      (.seq expr (.seq (.optional (before (symbol .dotDot) expr)) block)))))

def stmt : Phrase Stmt :=
  .either declaration (.either ifStmt (.either whileStmt (.either forStmt
    (.either returnStmt (.either assignment exprStmt)))))

def blockBody : Phrase (List Stmt) :=
  between .braceOpen .braceClose (.many (.labelled .statement stmt))

/-! ### Classes -/

def param : Phrase Param :=
  .map (fun x => ⟨x.1, x.2⟩) (.seq (after ident (symbol .colon)) type)

def method : Phrase Method :=
  .map (fun x => ⟨x.2, x.1.1, x.1.2.1, x.1.2.2.1, x.1.2.2.2.1, x.1.2.2.2.2⟩) (.spanned
    (.seq (.map Option.isSome (after (.optional (keyword .staticKw)) (keyword .fnKw))) (.seq ident
      (.seq (between .parenOpen .parenClose (.items param))
        (.seq (.optional (before (symbol .arrow) type)) block)))))

def classBody : Phrase Class :=
  .map (fun x => .mk x.2 x.1.1 x.1.2) (.spanned
    (before (keyword .classKw) (.seq ident (between .braceOpen .braceClose
      (.many (.either (.map Sum.inl method) (.map Sum.inr (.rule .classDecl))))))))

/-- A source: classes up to its end. -/
def file : Phrase File := .map File.mk (.many (.rule .classDecl))

end Grammar

/-- The right side of the rule of a construct. -/
def Nonterminal.body : {α : Type} → Nonterminal α → Phrase α
  | _, expr => Grammar.operation
  | _, type => .labelled .type Grammar.typeBody
  | _, block => Grammar.blockBody
  | _, classDecl => Grammar.classBody

theorem Nonterminal.body_guarded {α : Type} (n : Nonterminal α) : n.body.guarded = true := by
  cases n <;> rfl

theorem Nonterminal.body_nullable {α : Type} (n : Nonterminal α) : n.body.nullable = false := by
  cases n <;> rfl

theorem Nonterminal.body_advancing {α : Type} (n : Nonterminal α) : n.body.advancing = true := by
  cases n <;> rfl

end ReportTemplate.Syntax
