import ReportTemplate.Proofs.Grammar.Derivation
import ReportTemplate.Proofs.Syntax.Laws

/-!
# ReportTemplate.Proofs.Grammar.Reading — phrases read by ordered choice

Every phrase can be read as a parser that tries its alternatives in their order.  The parsers of
templates are the phrases of the grammar read this way.
-/

namespace ReportTemplate.Syntax

open ReportTemplate.Syntax.Parser (bind_bind pure_bind_eq result result_bind)

/-- Parsers for the constructs that occur inside themselves. -/
structure Readers where
  expr : Parser Expr
  type : Parser TypeExpr
  block : Parser (List Stmt)
  classDecl : Parser Class

def Readers.at (R : Readers) : {α : Type} → Nonterminal α → Parser α
  | _, .expr => R.expr
  | _, .type => R.type
  | _, .block => R.block
  | _, .classDecl => R.classDecl

/-- The parser that reads a phrase by ordered choice. -/
def Phrase.parser (R : Readers) : {α : Type} → Phrase α → Parser α
  | _, .fixed m => Parser.exactly m.token
  | _, .name => Parser.token [] fun | .ident s => some s | _ => none
  | _, .value => Parser.token [] literalOf?
  | _, .map f p => do let a ← p.parser R; pure (f a)
  | _, .seq p q => do let a ← p.parser R; let b ← q.parser R; pure (a, b)
  | _, .either p q => Parser.either (p.parser R) (q.parser R)
  | _, .optional p => Parser.optional (p.parser R)
  | _, .many p => Parser.many (p.parser R)
  | _, .items p => fun c => Parser.itemsUpTo (p.parser R) c.rest c
  | _, .spanned p => Parser.spanned (p.parser R)
  | _, .labelled l p => Parser.labelled l.text (p.parser R)
  | _, .rule n => R.at n

namespace Phrase

variable {α β : Type} (R : Readers)

theorem parser_map (f : α → β) (p : Phrase α) :
    (Phrase.map f p).parser R = p.parser R >>= fun a => pure (f a) := rfl

theorem parser_seq (p : Phrase α) (q : Phrase β) : (Phrase.seq p q).parser R =
    p.parser R >>= fun a => q.parser R >>= fun b => pure (a, b) := rfl

theorem parser_either (p q : Phrase α) :
    (Phrase.either p q).parser R = Parser.either (p.parser R) (q.parser R) := rfl

theorem parser_optional (p : Phrase α) :
    (Phrase.optional p).parser R = Parser.optional (p.parser R) := rfl

theorem parser_many (p : Phrase α) : (Phrase.many p).parser R = Parser.many (p.parser R) := rfl

theorem parser_items (p : Phrase α) :
    (Phrase.items p).parser R = fun c => Parser.itemsUpTo (p.parser R) c.rest c := rfl

theorem parser_spanned (p : Phrase α) :
    (Phrase.spanned p).parser R = Parser.spanned (p.parser R) := rfl

theorem parser_labelled (l : Label) (p : Phrase α) :
    (Phrase.labelled l p).parser R = Parser.labelled l.text (p.parser R) := rfl

theorem parser_rule (n : Nonterminal α) : (Phrase.rule n).parser R = R.at n := rfl

variable (c : Cursor)

theorem result_map (f : α → β) (p : Phrase α) :
    result ((Phrase.map f p).parser R) c = (result (p.parser R) c).map fun r => (f r.1, r.2) := by
  show result (p.parser R >>= fun a => pure (f a)) c = _
  rw [result_bind]
  cases result (p.parser R) c <;> rfl

theorem result_seq (p : Phrase α) (q : Phrase β) : result ((Phrase.seq p q).parser R) c =
    (result (p.parser R) c).bind fun r =>
      (result (q.parser R) r.2).map fun s => ((r.1, s.1), s.2) := by
  show result (p.parser R >>= fun a => q.parser R >>= fun b => pure (a, b)) c = _
  rw [result_bind]
  refine congrArg _ (funext fun r => ?_)
  rw [result_bind]
  cases result (q.parser R) r.2 <;> rfl

theorem result_either (p q : Phrase α) : result ((Phrase.either p q).parser R) c =
    (result (p.parser R) c).or (result (q.parser R) c) :=
  Parser.result_either c

theorem result_optional (p : Phrase α) : result ((Phrase.optional p).parser R) c =
    match result (p.parser R) c with
    | some (a, c') => some (some a, c')
    | none => some (none, c) :=
  Parser.result_optional c

end Phrase

/-! ### The parsers of templates -/

theorem isOutOfRange_iff {t : Token} : Token.isOutOfRange t = true ↔
    ∃ text, t = .unknown text ∧ ∀ c ∈ text.toList, '0' ≤ c ∧ c ≤ '9' := by
  have hdigits : ∀ text : String, Token.isOutOfRange (.unknown text) = true ↔
      ∀ c ∈ text.toList, '0' ≤ c ∧ c ≤ '9' := by
    intro text
    simp only [Token.isOutOfRange, List.all_eq_true, Number.isDigit, Bool.and_eq_true,
      decide_eq_true_eq]
  constructor
  · intro h
    cases t with
    | unknown text => exact ⟨text, rfl, (hdigits text).mp h⟩
    | _ => cases h
  · rintro ⟨text, rfl, h⟩
    exact (hdigits text).mpr h

theorem denotes_iff {t : Token} {l : Literal} : Denotes t l ↔ literalOf? t = some l := by
  constructor
  · rintro (_ | _ | _ | _ | _ | _ | ⟨text, hdigits⟩)
    all_goals try rfl
    exact if_pos (isOutOfRange_iff.mpr ⟨text, rfl, hdigits⟩)
  · intro h
    cases t with
    | int n =>
      obtain rfl := Option.some.inj h
      exact .int n
    | float x =>
      obtain rfl := Option.some.inj h
      exact .float x
    | string s =>
      obtain rfl := Option.some.inj h
      exact .string s
    | keyword k =>
      cases k
      case trueKw =>
        obtain rfl := Option.some.inj h
        exact .trueKw
      case falseKw =>
        obtain rfl := Option.some.inj h
        exact .falseKw
      case nullKw =>
        obtain rfl := Option.some.inj h
        exact .nullKw
      all_goals exact nomatch (show none = some l from h)
    | unknown text =>
      replace h : (if Token.isOutOfRange (.unknown text) then some (.int 0) else none) = some l := h
      split_ifs at h with hrange
      obtain ⟨_, heq, hdigits⟩ := isOutOfRange_iff.mp hrange
      obtain rfl := Token.unknown.inj heq
      obtain rfl := Option.some.inj h
      exact .oversized text hdigits
    | symbol k => exact nomatch (show none = some l from h)
    | ident name => exact nomatch (show none = some l from h)

namespace Grammar

open Phrase (parser_map parser_seq parser_either parser_optional parser_many parser_items
  parser_spanned parser_labelled parser_rule)

variable {α β : Type} (R : Readers)

theorem parser_before (p : Phrase α) (q : Phrase β) :
    (Phrase.before p q).parser R = p.parser R >>= fun _ => q.parser R := by
  simp only [Phrase.before, parser_map, parser_seq, bind_bind, pure_bind_eq]
  exact congrArg _ (funext fun _ => Parser.bind_pure_self _)

theorem parser_after (p : Phrase α) (q : Phrase β) :
    (Phrase.after p q).parser R = p.parser R >>= fun a => q.parser R >>= fun _ => pure a := by
  simp only [Phrase.after, parser_map, parser_seq, bind_bind, pure_bind_eq]

theorem parser_between (opening closing : Symbol) (p : Phrase α) :
    (Phrase.between opening closing p).parser R = Parser.between opening closing (p.parser R) := by
  unfold Phrase.between
  rw [parser_before, parser_after]
  rfl

theorem parser_ident : ident.parser R = Syntax.ident := rfl

theorem parser_literal : literal.parser R = Syntax.literal := rfl

theorem parser_args : args.parser R = Syntax.args R.expr := parser_between R _ _ _

theorem parser_call : call.parser R = Syntax.call R.expr := by
  simp only [call, parser_map, parser_seq, parser_spanned, parser_args, parser_ident]
  rfl

theorem parser_list : list.parser R = Syntax.list R.expr := by
  simp only [list, parser_map, parser_items, parser_spanned, parser_between]
  rfl

theorem parser_operand :
    Parser.labelled Label.expression.text (operand.parser R) = Syntax.atom R.expr := by
  simp only [operand, parser_either, parser_literal, parser_call, parser_list, parser_between]
  rfl

theorem parser_methodSuffix : methodSuffix.parser R = Syntax.methodSuffix R.expr := by
  simp only [methodSuffix, parser_map, parser_seq, parser_before, parser_args, parser_ident,
    bind_bind, pure_bind_eq]
  rfl

theorem parser_indexSuffix : indexSuffix.parser R = Syntax.indexSuffix R.expr := by
  simp only [indexSuffix, parser_map, parser_between]
  rfl

theorem parser_suffixed : suffixed.parser R = Syntax.suffixed R.expr := by
  simp only [suffixed, parser_map, parser_seq, parser_either, parser_many, parser_spanned,
    parser_labelled, parser_operand, parser_methodSuffix, parser_indexSuffix, bind_bind,
    pure_bind_eq]
  rfl

theorem parser_unaryOp : unaryOp.parser R = Syntax.unaryOp := rfl

theorem parser_unary : unary.parser R = Syntax.unary R.expr := by
  simp only [unary, parser_map, parser_seq, parser_many, parser_spanned, parser_suffixed,
    parser_unaryOp, bind_bind, pure_bind_eq]
  rfl

theorem parser_operator (o : Symbol × BinaryOp) (ops : List (Symbol × BinaryOp)) :
    (operator o ops).parser R = Syntax.operator (o :: ops) := by
  induction ops generalizing o with
  | nil => rfl
  | cons o' ops ih =>
    simp only [operator, parser_map, parser_either, ih]
    rfl

theorem parser_leftChain (o : Symbol × BinaryOp) (ops : List (Symbol × BinaryOp))
    (operand : Phrase Expr) :
    (leftChain (o :: ops) operand).parser R =
      Syntax.leftChain (o :: ops) (operand.parser R) := by
  simp only [leftChain, parser_map, parser_seq, parser_many, parser_operator, bind_bind,
    pure_bind_eq]
  rfl

theorem parser_operation : operation.parser R = Syntax.operation R.expr := by
  simp only [operation, levels, List.foldl, parser_leftChain, parser_unary]
  rfl

theorem parser_callbackType : callbackType.parser R = Syntax.callbackType R.type := by
  simp only [callbackType, parser_map, parser_items, parser_spanned, parser_before, parser_between]
  rfl

theorem parser_typeBody :
    (Phrase.labelled .type typeBody).parser R =
      Parser.labelled "type" (Parser.either (Syntax.callbackType R.type) Syntax.namedType) := by
  simp only [typeBody, parser_either, parser_labelled, parser_callbackType]
  rfl

section

variable {R}

theorem parser_declaration (he : R.expr = Syntax.expr) :
    declaration.parser R = Syntax.declaration := by
  simp only [declaration, parser_map, parser_seq, parser_spanned, parser_rule, parser_before,
    parser_after, parser_ident, bind_bind, pure_bind_eq, expr, Readers.at, he]
  rfl

theorem parser_assignment (he : R.expr = Syntax.expr) :
    assignment.parser R = Syntax.assignment := by
  simp only [assignment, parser_map, parser_seq, parser_spanned, parser_rule, parser_after,
    parser_ident, bind_bind, pure_bind_eq, expr, Readers.at, he]
  rfl

theorem parser_exprStmt (he : R.expr = Syntax.expr) : exprStmt.parser R = Syntax.exprStmt := by
  simp only [exprStmt, parser_map, parser_spanned, parser_rule, parser_after, expr, Readers.at, he]
  rfl

theorem parser_returnStmt (he : R.expr = Syntax.expr) :
    returnStmt.parser R = Syntax.returnStmt := by
  simp only [returnStmt, parser_map, parser_optional, parser_spanned, parser_rule, parser_before,
    parser_after, expr, Readers.at, he]
  rfl

theorem parser_guard (he : R.expr = Syntax.expr) : guard.parser R = Syntax.guarded R.block := by
  simp only [guard, parser_seq, parser_rule, expr, block, Readers.at, he]
  rfl

theorem parser_ifStmt (he : R.expr = Syntax.expr) : ifStmt.parser R = Syntax.ifStmt R.block := by
  simp only [ifStmt, elseIf, otherwise, parser_map, parser_seq, parser_optional, parser_many,
    parser_spanned, parser_rule, parser_before, parser_guard he, bind_bind, pure_bind_eq, block,
    Readers.at]
  rfl

theorem parser_whileStmt (he : R.expr = Syntax.expr) :
    whileStmt.parser R = Syntax.whileStmt R.block := by
  simp only [whileStmt, parser_map, parser_spanned, parser_before, parser_guard he]
  rfl

theorem parser_forStmt (he : R.expr = Syntax.expr) : forStmt.parser R = Syntax.forStmt R.block := by
  simp only [forStmt, parser_map, parser_seq, parser_optional, parser_spanned, parser_rule,
    parser_before, parser_after, parser_ident, bind_bind, pure_bind_eq, expr, block, Readers.at, he]
  refine congrArg (_ >>= ·) (funext fun x => ?_)
  obtain ⟨⟨binding, start, stop, body⟩, span⟩ := x
  cases stop <;> rfl

theorem parser_blockBody (he : R.expr = Syntax.expr) :
    blockBody.parser R =
      Parser.between .braceOpen .braceClose (Parser.many (Syntax.stmt R.block)) := by
  simp only [blockBody, stmt, parser_either, parser_many, parser_labelled, parser_between,
    parser_declaration he, parser_ifStmt he, parser_whileStmt he, parser_forStmt he,
    parser_returnStmt he, parser_assignment he, parser_exprStmt he]
  rfl

theorem parser_param (ht : R.type = Syntax.type) : param.parser R = Syntax.param := by
  simp only [param, parser_map, parser_seq, parser_rule, parser_after, parser_ident, bind_bind,
    pure_bind_eq, type, Readers.at, ht]
  rfl

theorem parser_method (ht : R.type = Syntax.type) (hb : R.block = Syntax.block) :
    method.parser R = Syntax.method := by
  simp only [method, parser_map, parser_seq, parser_optional, parser_items, parser_spanned,
    parser_rule, parser_before, parser_after, parser_between, parser_ident, parser_param ht,
    bind_bind, pure_bind_eq, type, block, Readers.at, ht, hb]
  rfl

theorem parser_classBody (ht : R.type = Syntax.type) (hb : R.block = Syntax.block) :
    classBody.parser R = Syntax.classOf R.classDecl := by
  simp only [classBody, parser_map, parser_seq, parser_either, parser_many, parser_spanned,
    parser_rule, parser_before, parser_between, parser_ident, parser_method ht hb, Readers.at]
  rfl

end

end Grammar

end ReportTemplate.Syntax
