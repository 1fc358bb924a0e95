import ReportTemplate.Diagnostic
import ReportTemplate.Syntax
import ReportTemplate.Token.Lexer

/-!
# ReportTemplate.Syntax.Parser — reading a syntax tree from tokens

The grammar is tried as ordered choice.  Every token test that fails is remembered with its place and
what it wanted; only the furthest place counts, and the one error about a source that cannot be read
is reported there.  Digits that fit in no integer are read as a number and reported besides.
-/

namespace ReportTemplate.Syntax

/-! ### Parsers -/

/-- What is left to read: the index of the next token, the end of the token before it, the tokens. -/
structure Cursor where
  index : Nat
  last : Nat
  rest : List Located
deriving Repr

namespace Cursor

/-- The start of the next token. -/
def start (c : Cursor) : Nat :=
  match c.rest with
  | [] => c.last
  | t :: _ => t.span.start

end Cursor

/-- The failed token tests that lie furthest: their place, and what was wanted there. -/
structure Failure where
  index : Nat
  wanted : List String
deriving DecidableEq, Repr

namespace Failure

/-- The further one of two failures; what they want at one place is put together. -/
def merge : Option Failure → Option Failure → Option Failure
  | none, b => b
  | a, none => a
  | some a, some b =>
    if a.index < b.index then some b
    else if b.index < a.index then some a
    else some ⟨a.index, a.wanted ++ b.wanted.filter fun w => !a.wanted.contains w⟩

/-- A failure at the place where a construct begins is the lack of that construct. -/
def relabel (start : Nat) (label : String) : Option Failure → Option Failure
  | none => none
  | some f => if f.index = start then some ⟨start, [label]⟩ else some f

end Failure

/-- Reads a value from a cursor if it can, and tells the failed tests on the way in either case. -/
def Parser (α : Type) := Cursor → Option (α × Cursor) × Option Failure

namespace Parser

variable {α β : Type}

/-- Reads nothing. -/
def done (a : α) : Parser α := fun c => (some (a, c), none)

/-- One parser, then another that may depend on what was read. -/
def andThen (p : Parser α) (f : α → Parser β) : Parser β := fun c =>
  match p c with
  | (none, e) => (none, e)
  | (some (a, c), e) =>
    let (r, e') := f a c
    (r, Failure.merge e e')

instance : Monad Parser where
  pure := done
  bind := andThen

/-- No input is read by this parser. -/
def stuck : Parser α := fun _ => (none, none)

/-- The first parser, or the second from the same place. -/
def either (p q : Parser α) : Parser α := fun c =>
  match p c with
  | (some r, e) => (some r, e)
  | (none, e) =>
    let (r, e') := q c
    (r, Failure.merge e e')

/-- The parser if it succeeds, else nothing. -/
def optional (p : Parser α) : Parser (Option α) := fun c =>
  match p c with
  | (some (a, c), e) => (some (some a, c), e)
  | (none, e) => (some (none, c), e)

/-- The next token, if `f` takes it; `wanted` tells what would have been taken. -/
def token (wanted : List String) (f : Token → Option α) : Parser α := fun c =>
  match c.rest with
  | [] => (none, some ⟨c.index, wanted⟩)
  | t :: rest =>
    match f t.token with
    | some a => (some (a, ⟨c.index + 1, t.span.stop, rest⟩), none)
    | none => (none, some ⟨c.index, wanted⟩)

/-- One fixed token. -/
def exactly (t : Token) : Parser Unit :=
  token [t.describe] fun found => if found = t then some () else none

def symbol (k : Symbol) : Parser Unit := exactly (.symbol k)

def keyword (k : Keyword) : Parser Unit := exactly (.keyword k)

/-- The parser again and again until it fails, at most once more than `bound` has tokens. -/
def upTo (p : Parser α) (bound : List Located) : Parser (List α) := fun c =>
  match p c with
  | (none, e) => (some ([], c), e)
  | (some (a, c), e) =>
    match bound with
    | [] => (some ([a], c), e)
    | _ :: bound =>
      let (r, e') := upTo p bound c
      (r.map fun (as, c) => (a :: as, c), Failure.merge e e')

/-- The parser again and again until it fails.  Each round reads a token, so the tokens that are left
bound the rounds. -/
def many (p : Parser α) : Parser (List α) := fun c => upTo p c.rest c

/-- Items with commas between them, at most one more than `bound` has tokens; a comma may stand behind
the last. -/
def itemsUpTo (p : Parser α) (bound : List Located) : Parser (List α) := fun c =>
  match p c with
  | (none, e) => (some ([], c), e)
  | (some (a, c), e) =>
    match symbol .comma c, bound with
    | (none, e'), _ => (some ([a], c), Failure.merge e e')
    | (some (_, c), e'), [] => (some ([a], c), Failure.merge e e')
    | (some (_, c), e'), _ :: bound =>
      let (r, e'') := itemsUpTo p bound c
      (r.map fun (as, c) => (a :: as, c), Failure.merge (Failure.merge e e') e'')

/-- A parser between two symbols. -/
def between (opening closing : Symbol) (p : Parser α) : Parser α := do
  symbol opening
  let a ← p
  symbol closing
  pure a

/-- Items with commas between them, between two symbols. -/
def items (opening closing : Symbol) (p : Parser α) : Parser (List α) :=
  between opening closing fun c => itemsUpTo p c.rest c

/-- The value together with the span from its first to its last token. -/
def spanned (p : Parser α) : Parser (α × Span) := fun c =>
  let (r, e) := p c
  (r.map fun (a, c') => ((a, ⟨c.start, c'.last⟩), c'), e)

/-- A parser of a construct that has a name. -/
def labelled (label : String) (p : Parser α) : Parser α := fun c =>
  let (r, e) := p c
  (r, Failure.relabel c.index label e)

end Parser

open ReportTemplate.Syntax.Parser

/-! ### Expressions -/

def ident : Parser Ident := do
  let (text, span) ← spanned (token [] fun | .ident name => some name | _ => none)
  pure ⟨text, span⟩

/-- Digits that fit in no integer. -/
def Token.isOutOfRange : Token → Bool
  | .unknown text => text.toList.all Number.isDigit
  | _ => false

/-- The value a token denotes; digits out of range are read as zero. -/
def literalOf? : Token → Option Literal
  | .int n => some (.int n)
  | .float x => some (.float x)
  | .string s => some (.string s)
  | .keyword .trueKw => some (.bool true)
  | .keyword .falseKw => some (.bool false)
  | .keyword .nullKw => some .null
  | t => if Token.isOutOfRange t then some (.int 0) else none

def literal : Parser Expr := do
  let (value, span) ← spanned (token [] literalOf?)
  pure (.literal span value)

section

variable (expr : Parser Expr)

def args : Parser (List Expr) := items .parenOpen .parenClose expr

def call : Parser Expr := do
  let ((callee, args), span) ← spanned do
    let callee ← ident
    let args ← args expr
    pure (callee, args)
  pure (.call span callee args)

def variableName : Parser Expr := do
  let name ← ident
  pure (.ident name.span name.text)

def list : Parser Expr := do
  let (items, span) ← spanned (items .bracketOpen .bracketClose expr)
  pure (.list span items)

/-- An expression without operators and suffixes; a call is tried before a bare name. -/
def atom : Parser Expr :=
  labelled "expression"
    (either literal (either (call expr) (either variableName (either (list expr)
      (between .parenOpen .parenClose expr)))))

/-- What may stand behind an expression. -/
inductive Suffix where
  | method (name : Ident) (args : List Expr)
  | index (index : Expr)

def methodSuffix : Parser Suffix := do
  symbol .dot
  let name ← ident
  let args ← args expr
  pure (.method name args)

def indexSuffix : Parser Suffix := do
  let index ← between .bracketOpen .bracketClose expr
  pure (.index index)

/-- The expression with a suffix that ends at `stop`. -/
def withSuffix (e : Expr) : Suffix × Span → Expr
  | (.method name args, span) => .method ⟨e.span.start, span.stop⟩ e name args
  | (.index index, span) => .index ⟨e.span.start, span.stop⟩ e index

def suffixed : Parser Expr := do
  let e ← atom expr
  let suffixes ← many (spanned (either (methodSuffix expr) (indexSuffix expr)))
  pure (suffixes.foldl withSuffix e)

def unaryOp : Parser UnaryOp :=
  either (do symbol .minus; pure .negate) (do symbol .bang; pure .not)

def unary : Parser Expr := do
  let ops ← many (spanned unaryOp)
  let e ← suffixed expr
  pure (ops.foldr (fun (op, span) e => .unary ⟨span.start, e.span.stop⟩ op e) e)

end

/-- One operator of a level, in the order of the list. -/
def operator : List (Symbol × BinaryOp) → Parser BinaryOp
  | [] => stuck
  | [(k, op)] => do symbol k; pure op
  | (k, op) :: ops => either (do symbol k; pure op) (operator ops)

/-- Operands with operators of one level between them, grouped from the left. -/
def leftChain (ops : List (Symbol × BinaryOp)) (operand : Parser Expr) : Parser Expr := do
  let first ← operand
  let more ← many do
    let op ← operator ops
    let right ← operand
    pure (op, right)
  pure (more.foldl (fun l (op, r) => .binary ⟨l.span.start, r.span.stop⟩ op l r) first)

/-- The levels of binary operators, the tightest first. -/
def levels : List (List (Symbol × BinaryOp)) :=
  [[(.star, .mul), (.slash, .div), (.percent, .rem)],
    [(.plus, .add), (.minus, .sub)],
    [(.lessOrEqual, .lessEqual), (.greaterOrEqual, .greaterEqual), (.less, .less),
      (.greater, .greater)],
    [(.equalsEquals, .equal), (.notEquals, .notEqual)],
    [(.andAnd, .and)],
    [(.orOr, .or)]]

/-- An expression whose parts in brackets are read by `expr`. -/
def operation (expr : Parser Expr) : Parser Expr :=
  levels.foldl (fun operand ops => leftChain ops operand) (unary expr)

/-- An expression with at most `depth` brackets inside one another. -/
def exprWithin : Nat → Parser Expr
  | 0, c => stuck c
  | depth + 1, c => operation (exprWithin depth) c

/-- An expression.  Each bracket is a token, so their depth is less than the number of tokens. -/
def expr : Parser Expr := fun c => exprWithin (c.rest.length + 1) c

/-! ### Types -/

def callbackType (type : Parser TypeExpr) : Parser TypeExpr := do
  let (params, span) ← spanned do
    keyword .fnKw
    items .parenOpen .parenClose type
  pure (.callback span params)

def namedType : Parser TypeExpr := do
  let name ← ident
  pure (.named name.span name.text)

def typeWithin : Nat → Parser TypeExpr
  | 0, c => stuck c
  | depth + 1, c => labelled "type" (either (callbackType (typeWithin depth)) namedType) c

/-- A name or `fn(…)`. -/
def type : Parser TypeExpr := fun c => typeWithin (c.rest.length + 1) c

/-! ### Statements -/

def declaration : Parser Stmt := do
  let ((name, value), span) ← spanned do
    keyword .letKw
    let name ← ident
    symbol .equals
    let value ← expr
    symbol .semicolon
    pure (name, value)
  pure (.declare span name value)

def assignment : Parser Stmt := do
  let ((name, value), span) ← spanned do
    let name ← ident
    symbol .equals
    let value ← expr
    symbol .semicolon
    pure (name, value)
  pure (.assign span name value)

def exprStmt : Parser Stmt := do
  let (value, span) ← spanned do
    let value ← expr
    symbol .semicolon
    pure value
  pure (.expr span value)

def returnStmt : Parser Stmt := do
  let (value, span) ← spanned do
    keyword .returnKw
    let value ← optional expr
    symbol .semicolon
    pure value
  pure (.result span value)

section

variable (block : Parser (List Stmt))

/-- A condition and the block that it guards. -/
def guarded : Parser (Expr × List Stmt) := do
  let condition ← expr
  let body ← block
  pure (condition, body)

def ifStmt : Parser Stmt := do
  let ((branches, otherwise), span) ← spanned do
    keyword .ifKw
    let first ← guarded block
    let more ← many do
      keyword .elseKw
      keyword .ifKw
      guarded block
    let otherwise ← optional do
      keyword .elseKw
      block
    pure (first :: more, otherwise)
  pure (.branch span branches otherwise)

def whileStmt : Parser Stmt := do
  let ((condition, body), span) ← spanned do
    keyword .whileKw
    guarded block
  pure (.loop span condition body)

def forStmt : Parser Stmt := do
  let ((binding, start, stop, body), span) ← spanned do
    keyword .forKw
    let binding ← ident
    keyword .inKw
    let start ← expr
    let stop ← optional do
      symbol .dotDot
      expr
    let body ← block
    pure (binding, start, stop, body)
  match stop with
  | none => pure (.forEach span binding start body)
  | some stop => pure (.forRange span binding start stop body)

/-- A statement; an assignment is tried before an expression. -/
def stmt : Parser Stmt :=
  labelled "statement"
    (either declaration (either (ifStmt block) (either (whileStmt block) (either (forStmt block)
      (either returnStmt (either assignment exprStmt))))))

end

def blockWithin : Nat → Parser (List Stmt)
  | 0, c => stuck c
  | depth + 1, c => between .braceOpen .braceClose (many (stmt (blockWithin depth))) c

def block : Parser (List Stmt) := fun c => blockWithin (c.rest.length + 1) c

/-! ### Classes -/

def param : Parser Param := do
  let name ← ident
  symbol .colon
  let type ← type
  pure ⟨name, type⟩

def method : Parser Method := do
  let ((isStatic, name, params, returns, body), span) ← spanned do
    let isStatic ← optional (keyword .staticKw)
    keyword .fnKw
    let name ← ident
    let params ← items .parenOpen .parenClose param
    let returns ← optional do
      symbol .arrow
      type
    let body ← block
    pure (isStatic.isSome, name, params, returns, body)
  pure ⟨span, isStatic, name, params, returns, body⟩

/-- A class whose inner classes are read by `inner`. -/
def classOf (inner : Parser Class) : Parser Class := do
  let ((name, members), span) ← spanned do
    keyword .classKw
    let name ← ident
    let members ← between .braceOpen .braceClose
      (many (either (Sum.inl <$> method) (Sum.inr <$> inner)))
    pure (name, members)
  pure (.mk span name members)

def classWithin : Nat → Parser Class
  | 0, c => stuck c
  | depth + 1, c => classOf (classWithin depth) c

def classDecl : Parser Class := fun c => classWithin (c.rest.length + 1) c

/-! ### Sources -/

/-- The message about digits that fit in no integer. -/
def outOfRange (t : Located) : Diagnostic :=
  let digits := match t.token with
    | .unknown text => text
    | _ => ""
  ⟨.unexpectedToken, "integer literal " ++ digits ++ " is out of range", t.span, [], false⟩

/-- The messages about digits out of range among tokens that were read. -/
def outOfRanges (tokens : List Located) : List Diagnostic :=
  (tokens.filter fun t => Token.isOutOfRange t.token).map outOfRange

/-- The message about the furthest place that was reached in a source of `size` bytes. -/
def unexpected (size : Nat) (tokens : List Located) (f : Failure) : Diagnostic :=
  match tokens[f.index]? with
  | some t => ⟨.unexpectedToken, "unexpected " ++ t.token.describe, t.span, f.wanted, false⟩
  | none =>
    let stop := (tokens.getLast?.map fun t => t.span.stop).getD size
    ⟨.unexpectedToken, "unexpected end of input", ⟨size, stop⟩, f.wanted, false⟩

/-- Reads the tokens of a source of `size` bytes: classes up to the end of the input. -/
def parseTokens (size : Nat) (tokens : List Located) : Except (List Diagnostic) File :=
  match many classDecl ⟨0, 0, tokens⟩ with
  | (none, _) => .error []
  | (some (classes, c), e) =>
    let reported := outOfRanges (tokens.take c.index)
    match c.rest, Failure.merge e (some ⟨c.index, ["end of input"]⟩) with
    | [], _ => if reported.isEmpty then .ok ⟨classes⟩ else .error reported
    | _ :: _, some f => .error (reported ++ [unexpected size tokens f])
    | _ :: _, none => .error reported

/-- Reads the syntax tree of a source, or tells why it has none. -/
def parse (source : List Char) : Except (List Diagnostic) File :=
  parseTokens (Text.byteSize source) (lex source)

end ReportTemplate.Syntax
