import ReportTemplate.Proofs.Grammar.Heads
import ReportTemplate.Proofs.LogCall.Numbering
import ReportTemplate.Proofs.Program.Signatures

/-!
# ReportTemplate.Proofs.Program.Lines — the lines of a program are those of its source

The index of lines counts the line feeds in front of a byte.  `Lined` says of a statement or an expression
of the source and of what it becomes that each node of the program has the line of the node that it comes
from.  A source keeps its lines when its log calls are expanded, so these are lines of the text as its
author wrote it.
-/

namespace ReportTemplate

/-! ### Lines and bytes -/

namespace LineIndex

/-- The byte of a line feed occurs in no other character. -/
theorem not_mem_utf8EncodeChar {c : Char} (h : c ≠ '\n') : 10 ∉ String.utf8EncodeChar c := by
  have hval : c.val.toNat ≠ 10 := fun hval => h (Char.ext (UInt32.toNat_inj.mp hval))
  have hbyte {n : Nat} (hn : n < 256) (hne : n ≠ 10) : 10 ≠ UInt8.ofNat n := by
    intro heq
    have hmod := congrArg UInt8.toNat heq
    rw [UInt8.toNat_ofNat', Nat.mod_eq_of_lt hn] at hmod
    exact hne hmod.symm
  unfold String.utf8EncodeChar
  dsimp only
  split_ifs <;> simp only [List.mem_cons, List.not_mem_nil, or_false, not_or]
  · exact hbyte (by omega) hval
  · exact ⟨hbyte (by omega) (by omega), hbyte (by omega) (by omega)⟩
  · exact ⟨hbyte (by omega) (by omega), hbyte (by omega) (by omega), hbyte (by omega) (by omega)⟩
  · exact ⟨hbyte (by omega) (by omega), hbyte (by omega) (by omega), hbyte (by omega) (by omega),
      hbyte (by omega) (by omega)⟩

/-- The lines that have begun at a place, one for each line feed in the bytes in front of it. -/
theorem countP_startsFrom_le (base offset : Nat) (text : List Char) :
    (startsFrom base text).countP (· ≤ offset) =
      ((text.flatMap String.utf8EncodeChar).take (offset - base)).count 10 := by
  induction text generalizing base with
  | nil => simp [startsFrom]
  | cons c text ih =>
    rw [List.flatMap_cons, List.take_append, List.count_append, String.length_utf8EncodeChar,
      Nat.sub_sub, ← ih, startsFrom]
    split
    next hc =>
      subst hc
      have hsize : '\n'.utf8Size = 1 := rfl
      have hbytes : String.utf8EncodeChar '\n' = [10] := rfl
      rw [hsize, hbytes, List.countP_cons, Nat.add_comm]
      congr 1
      by_cases hle : base + 1 ≤ offset
      · obtain ⟨k, hk⟩ := Nat.exists_eq_add_of_le hle
        have hsub : offset - base = k + 1 := by omega
        rw [hsub, if_pos (decide_eq_true hle), List.take_succ_cons, List.take_nil, List.count_singleton_self]
      · have hsub : offset - base = 0 := by omega
        rw [hsub, if_neg (by simpa using hle)]
        rfl
    next hc =>
      have hnone : ((String.utf8EncodeChar c).take (offset - base)).count 10 = 0 :=
        List.count_eq_zero_of_not_mem fun hmem => not_mem_utf8EncodeChar hc (List.mem_of_mem_take hmem)
      rw [hnone, Nat.zero_add]

/-- The line of an offset is one more than the number of line feeds among the bytes in front of it. -/
theorem line_eq_count (text : List Char) (offset : Nat) : (ofSource text).line offset =
    ((text.flatMap String.utf8EncodeChar).take offset).count 10 + 1 := by
  rw [line, ofSource, List.countP_cons_of_pos (by simp), countP_startsFrom_le, Nat.sub_zero]

theorem pairwise_startsFrom (base : Nat) (text : List Char) :
    (startsFrom base text).Pairwise (· < ·) := by
  induction text generalizing base with
  | nil => exact .nil
  | cons c text ih =>
    rw [startsFrom]
    split
    · exact List.pairwise_cons.mpr ⟨fun _ => lt_of_mem_startsFrom, ih _⟩
    · exact ih _

/-- A binary search among the starts of lines finds the offset at a place, or the place where it would
stand; the line is the one behind the former, and the latter. -/
theorem line_of_search (text : List Char) (offset i : Nat) :
    ((ofSource text).starts[i]? = some offset → (ofSource text).line offset = i + 1) ∧
    (i ≤ (ofSource text).starts.length → (∀ start ∈ (ofSource text).starts.take i, start < offset) →
      (∀ start ∈ (ofSource text).starts.drop i, offset < start) →
        (ofSource text).line offset = i) := by
  generalize hstarts : (ofSource text).starts = starts
  have hsorted : starts.Pairwise (· < ·) := by
    rw [← hstarts]
    exact List.pairwise_cons.mpr ⟨fun _ => lt_of_mem_startsFrom, pairwise_startsFrom 0 text⟩
  have hcut (i : Nat) (hi : i ≤ starts.length) (hbefore : ∀ start ∈ starts.take i, start ≤ offset)
      (hbehind : ∀ start ∈ starts.drop i, offset < start) : (ofSource text).line offset = i := by
    rw [line, hstarts, ← List.take_append_drop i starts, List.countP_append,
      List.countP_eq_length.mpr fun start h => decide_eq_true (hbefore start h),
      List.countP_eq_zero.mpr fun start h => by simpa using hbehind start h, List.length_take]
    omega
  constructor
  · intro hfound
    obtain ⟨hi, hstart⟩ := List.getElem?_eq_some_iff.mp hfound
    have hparts : starts = starts.take i ++ offset :: starts.drop (i + 1) := by
      rw [← hstart, ← List.drop_eq_getElem_cons, List.take_append_drop]
    rw [hparts] at hsorted
    obtain ⟨-, hlater, hcross⟩ := List.pairwise_append.mp hsorted
    refine hcut (i + 1) hi (fun start h => ?_) (List.pairwise_cons.mp hlater).1
    rw [List.take_succ_eq_append_getElem hi, hstart] at h
    rcases List.mem_append.mp h with h | h
    · exact Nat.le_of_lt (hcross start h offset List.mem_cons_self)
    · exact Nat.le_of_eq (List.mem_singleton.mp h)
  · exact fun hi hbefore hbehind =>
      hcut i hi (fun start h => Nat.le_of_lt (hbefore start h)) hbehind

end LineIndex

/-! ### Trees with lines -/

namespace Program

section

variable (On : Syntax.Element → Nat → Prop)

/-- The expression of the program comes from the one of the source, and each of its nodes has a line that
is told of the node that it comes from.  What was reported stands as the null value. -/
inductive LinedExpr : Syntax.Expr → Expr → Prop
  | literal {span : Span} {l : Syntax.Literal} {line : Nat} {value : Value}
      (on : On (.expr (.literal span l)) line) : LinedExpr (.literal span l) (.const line value)
  | reported {e : Syntax.Expr} {line : Nat} (on : On (.expr e) line) : LinedExpr e (.const line .null)
  | slot {span : Span} {name : String} {line slot : Nat} (on : On (.expr (.ident span name)) line) :
      LinedExpr (.ident span name) (.slot line slot)
  | list {span : Span} {items : List Syntax.Expr} {line : Nat} {items' : List Expr}
      (on : On (.expr (.list span items)) line) (parts : List.Forall₂ LinedExpr items items') :
      LinedExpr (.list span items) (.list line items')
  | unary {span : Span} {op : Syntax.UnaryOp} {e : Syntax.Expr} {line : Nat} {e' : Expr}
      (on : On (.expr (.unary span op e)) line) (operand : LinedExpr e e') :
      LinedExpr (.unary span op e) (.unary line op e')
  | binary {span : Span} {op : Syntax.BinaryOp} {l r : Syntax.Expr} {line : Nat} {l' r' : Expr}
      (on : On (.expr (.binary span op l r)) line) (left : LinedExpr l l') (right : LinedExpr r r') :
      LinedExpr (.binary span op l r) (.binary line op l' r')
  | index {span : Span} {e i : Syntax.Expr} {line : Nat} {e' i' : Expr}
      (on : On (.expr (.index span e i)) line) (target : LinedExpr e e') (place : LinedExpr i i') :
      LinedExpr (.index span e i) (.index line e' i')
  | callMethod {span : Span} {callee : Syntax.Ident} {args : List Syntax.Expr} {line : Nat}
      {id : MethodId} {args' : List Expr} (on : On (.expr (.call span callee args)) line)
      (parts : List.Forall₂ LinedExpr args args') :
      LinedExpr (.call span callee args) (.callMethod line id args')
  | callFunction {span : Span} {callee : Syntax.Ident} {args : List Syntax.Expr} {line : Nat}
      {f : Function} {args' : List Expr} (on : On (.expr (.call span callee args)) line)
      (parts : List.Forall₂ LinedExpr args args') :
      LinedExpr (.call span callee args) (.callFunction line f args')
  | callSlot {span : Span} {callee : Syntax.Ident} {args : List Syntax.Expr} {line slot : Nat}
      {args' : List Expr} (on : On (.expr (.call span callee args)) line)
      (parts : List.Forall₂ LinedExpr args args') :
      LinedExpr (.call span callee args) (.callSlot line slot callee.text args')
  /-- The receiver names a class. -/
  | qualified {span : Span} {receiver : Syntax.Expr} {method : Syntax.Ident}
      {args : List Syntax.Expr} {line : Nat} {id : MethodId} {args' : List Expr}
      (on : On (.expr (.method span receiver method args)) line)
      (parts : List.Forall₂ LinedExpr args args') :
      LinedExpr (.method span receiver method args) (.callMethod line id args')
  | document {span : Span} {receiver : Syntax.Expr} {method : Syntax.Ident}
      {args : List Syntax.Expr} {line : Nat} {m : DocumentMethod} {receiver' : Expr}
      {args' : List Expr} (on : On (.expr (.method span receiver method args)) line)
      (object : LinedExpr receiver receiver') (parts : List.Forall₂ LinedExpr args args') :
      LinedExpr (.method span receiver method args) (.callDocument line m receiver' args')
  | dynamic {span : Span} {receiver : Syntax.Expr} {method : Syntax.Ident}
      {args : List Syntax.Expr} {line : Nat} {receiver' : Expr} {args' : List Expr}
      {d : Option DocumentMethod} {f : Option Function}
      (on : On (.expr (.method span receiver method args)) line)
      (object : LinedExpr receiver receiver') (parts : List.Forall₂ LinedExpr args args') :
      LinedExpr (.method span receiver method args)
        (.callDynamic line method.text receiver' args' d f)
  | receiver {span : Span} {receiver : Syntax.Expr} {method : Syntax.Ident}
      {args : List Syntax.Expr} {line : Nat} {f : Function} {receiver' : Expr} {args' : List Expr}
      (on : On (.expr (.method span receiver method args)) line)
      (object : LinedExpr receiver receiver') (parts : List.Forall₂ LinedExpr args args') :
      LinedExpr (.method span receiver method args) (.callFunction line f (receiver' :: args'))

mutual

/-- The statement of the program comes from the one of the source, with lines that are told of it. -/
inductive LinedStmt : Syntax.Stmt → Stmt → Prop
  | declare {span : Span} {name : Syntax.Ident} {e : Syntax.Expr} {line slot : Nat} {e' : Expr}
      (on : On (.stmt (.declare span name e)) line) (value : LinedExpr On e e') :
      LinedStmt (.declare span name e) (.store line slot e')
  | assign {span : Span} {name : Syntax.Ident} {e : Syntax.Expr} {line slot : Nat} {e' : Expr}
      (on : On (.stmt (.assign span name e)) line) (value : LinedExpr On e e') :
      LinedStmt (.assign span name e) (.store line slot e')
  /-- The name is not declared, which was reported. -/
  | undeclared {span : Span} {name : Syntax.Ident} {e : Syntax.Expr} {line : Nat} {e' : Expr}
      (on : On (.stmt (.assign span name e)) line) (value : LinedExpr On e e') :
      LinedStmt (.assign span name e) (.expr line e')
  | expr {span : Span} {e : Syntax.Expr} {line : Nat} {e' : Expr}
      (on : On (.stmt (.expr span e)) line) (value : LinedExpr On e e') :
      LinedStmt (.expr span e) (.expr line e')
  | branch {span : Span} {branches : List (Syntax.Expr × List Syntax.Stmt)}
      {otherwise : Option (List Syntax.Stmt)} {line : Nat} {branches' : List (Expr × List Stmt)}
      {otherwise' : Option (List Stmt)} (on : On (.stmt (.branch span branches otherwise)) line)
      (arms : LinedArms branches branches') (last : LinedOtherwise otherwise otherwise') :
      LinedStmt (.branch span branches otherwise) (.branch line branches' otherwise')
  | loop {span : Span} {e : Syntax.Expr} {body : List Syntax.Stmt} {line : Nat} {e' : Expr}
      {body' : List Stmt} (on : On (.stmt (.loop span e body)) line) (test : LinedExpr On e e')
      (block : LinedStmts body body') : LinedStmt (.loop span e body) (.loop line e' body')
  | forEach {span : Span} {binding : Syntax.Ident} {e : Syntax.Expr} {body : List Syntax.Stmt}
      {line slot : Nat} {e' : Expr} {body' : List Stmt}
      (on : On (.stmt (.forEach span binding e body)) line) (values : LinedExpr On e e')
      (block : LinedStmts body body') :
      LinedStmt (.forEach span binding e body) (.forEach line slot e' body')
  | forRange {span : Span} {binding : Syntax.Ident} {e₁ e₂ : Syntax.Expr}
      {body : List Syntax.Stmt} {line slot : Nat} {e₁' e₂' : Expr} {body' : List Stmt}
      (on : On (.stmt (.forRange span binding e₁ e₂ body)) line) (first : LinedExpr On e₁ e₁')
      (last : LinedExpr On e₂ e₂') (block : LinedStmts body body') :
      LinedStmt (.forRange span binding e₁ e₂ body) (.forRange line slot e₁' e₂' body')
  | leave {span : Span} {line : Nat} (on : On (.stmt (.result span none)) line) :
      LinedStmt (.result span none) (.result line none)
  | result {span : Span} {e : Syntax.Expr} {line : Nat} {e' : Expr}
      (on : On (.stmt (.result span (some e))) line) (value : LinedExpr On e e') :
      LinedStmt (.result span (some e)) (.result line (some e'))

inductive LinedStmts : List Syntax.Stmt → List Stmt → Prop
  | nil : LinedStmts [] []
  | cons {s : Syntax.Stmt} {ss : List Syntax.Stmt} {s' : Stmt} {ss' : List Stmt}
      (head : LinedStmt s s') (tail : LinedStmts ss ss') : LinedStmts (s :: ss) (s' :: ss')

inductive LinedArms : List (Syntax.Expr × List Syntax.Stmt) → List (Expr × List Stmt) → Prop
  | nil : LinedArms [] []
  | cons {e : Syntax.Expr} {body : List Syntax.Stmt} {bs : List (Syntax.Expr × List Syntax.Stmt)}
      {e' : Expr} {body' : List Stmt} {bs' : List (Expr × List Stmt)} (test : LinedExpr On e e')
      (block : LinedStmts body body') (tail : LinedArms bs bs') :
      LinedArms ((e, body) :: bs) ((e', body') :: bs')

inductive LinedOtherwise : Option (List Syntax.Stmt) → Option (List Stmt) → Prop
  | none : LinedOtherwise none none
  | some {body : List Syntax.Stmt} {body' : List Stmt} (block : LinedStmts body body') :
      LinedOtherwise (some body) (some body')

end

end

/-! ### Values of computations -/

namespace Resolve

/-- From any state, the value of the computation is as told. -/
def Makes {α : Type} (Q : α → Prop) (x : Resolve α) : Prop := ∀ s, Q (x s).1

namespace Makes

variable {α β : Type} {P : α → Prop} {Q : β → Prop}

theorem pure {a : α} (h : P a) : Makes P (Pure.pure a) := fun _ => h

theorem bind {x : Resolve α} {f : α → Resolve β} (hx : Makes P x) (hf : ∀ a, P a → Makes Q (f a)) :
    Makes Q (x >>= f) :=
  fun s => hf (x s).1 (hx s) (x s).2

/-- What the first computation gives does not matter. -/
theorem behind {x : Resolve α} {f : α → Resolve β} (hf : ∀ a, Makes Q (f a)) : Makes Q (x >>= f) :=
  fun s => hf (x s).1 (x s).2

theorem inScope {x : Resolve α} (hx : Makes P x) : Makes P (Resolve.inScope x) :=
  .behind fun _ => hx.bind fun _ ha => .behind fun _ => .pure ha

end Makes

section Calls

variable {Q : Expr × Ty → Prop} {line : Nat} {args : List Expr} (hnull : Q (unresolved line))

include hnull

theorem makes_refused (code : Diagnostic.Code) (message : String) (span : Span) :
    Makes Q (do
      report code message span
      return unresolved line) :=
  .behind fun _ => .pure hnull

theorem makes_counted {r : Expr × Ty} (hr : Q r) (name : String) (wanted found : Nat) (span : Span) :
    Makes Q (do
      if ← checkCount name wanted found span then return r
      return unresolved line) := by
  refine .behind fun ok => ?_
  split
  · exact .pure hr
  · exact .pure hnull

variable (S : Surroundings)

section

variable (hmethod : ∀ (id : MethodId) (m : Pending), S.declared.methods[id]? = some m →
  Q (.callMethod line id args, m.signature.returns))

include hmethod

theorem makes_staticCall (id : MethodId) (shown : String) (span : Span) :
    Makes Q (staticCall S line id shown args span) := by
  unfold staticCall
  split
  · exact .pure hnull
  next m hm =>
    split
    · exact makes_refused hnull _ _ _
    · exact makes_counted hnull (hmethod id m hm) _ _ _ _

theorem makes_plainCall (hfunction : ∀ g, Q (.callFunction line g args, .any))
    (callee : Syntax.Ident) : Makes Q (plainCall S line callee args) := by
  unfold plainCall
  split
  · exact makes_staticCall hnull S hmethod _ _ _
  · split
    · exact makes_counted hnull (hfunction _) _ _ _ _
    · exact makes_refused hnull _ _ _

theorem makes_qualifiedCall (type : TypeId) (typeName : String) (method : Syntax.Ident) :
    Makes Q (qualifiedCall S line type typeName method args) := by
  unfold qualifiedCall
  split
  · exact makes_staticCall hnull S hmethod _ _ _
  · exact makes_refused hnull _ _ _

end

theorem makes_localCall {callee : Syntax.Ident}
    (hcallback : ∀ slot, Q (.callSlot line slot callee.text args, .void))
    (hany : ∀ slot, Q (.callSlot line slot callee.text args, .any)) (slot : Slot) (ty : Ty) :
    Makes Q (localCall line slot ty callee args) := by
  refine .behind fun _ => ?_
  split
  · exact makes_counted hnull (hcallback slot) _ _ _ _
  · exact .pure (hany slot)
  · exact makes_refused hnull _ _ _

theorem makes_methodCall {receiver : Expr} {method : Syntax.Ident}
    (hdocument : ∀ m, Q (.callDocument line m receiver args, .void))
    (hdynamic : ∀ d g, Q (.callDynamic line method.text receiver args d g, .any))
    (hfunction : ∀ g, Q (.callFunction line g (receiver :: args), .any)) (ty : Ty) :
    Makes Q (methodCall S line receiver ty method args) := by
  unfold methodCall
  split
  · unfold documentCall
    split
    · exact makes_counted hnull (hdocument _) _ _ _ _
    · exact makes_refused hnull _ _ _
  · unfold dynamicCall
    dsimp only
    split
    · exact makes_refused hnull _ _ _
    · split
      · exact makes_refused hnull _ _ _
      · exact .pure (hdynamic _ _)
  · unfold receiverCall
    split
    · exact makes_counted hnull (hfunction _) _ _ _ _
    · exact makes_refused hnull _ _ _

end Calls

/-! ### Bodies -/

variable {On : Syntax.Element → Nat → Prop} {file : Syntax.File} {S : Surroundings}

/-- The line on which each node of the source begins is told of it. -/
def OnLines (On : Syntax.Element → Nat → Prop) (file : Syntax.File) (S : Surroundings) : Prop :=
  ∀ x, file.Has x → On x (S.lines.line x.span.start)

mutual

theorem lined_expr (hOn : OnLines On file S) : ∀ e : Syntax.Expr, file.Has (.expr e) →
    Makes (fun r => LinedExpr On e r.1) (expr S e)
  | .literal span l, h => .pure (.literal (hOn _ h))
  | .ident span name, h => .behind fun found => by
    split
    · exact .behind fun _ => .pure (.slot (hOn _ h))
    · exact .behind fun _ => .pure (.reported (hOn _ h))
  | .list span items, h =>
    (lined_exprs hOn items fun e he => h.part (List.mem_map_of_mem he)).bind fun _ hitems =>
      .pure (.list (hOn _ h) hitems)
  | .unary span op e, h =>
    (lined_expr hOn e (h.part List.mem_cons_self)).bind fun _ he => .pure (.unary (hOn _ h) he)
  | .binary span op l r, h =>
    (lined_expr hOn l (h.part List.mem_cons_self)).bind fun _ hl =>
      (lined_expr hOn r (h.part (List.mem_cons_of_mem _ List.mem_cons_self))).bind fun _ hr =>
        .pure (.binary (hOn _ h) hl hr)
  | .index span e i, h =>
    (lined_expr hOn e (h.part List.mem_cons_self)).bind fun _ he =>
      (lined_expr hOn i (h.part (List.mem_cons_of_mem _ List.mem_cons_self))).bind fun _ hi =>
        .pure (.index (hOn _ h) he hi)
  | .call span callee args, h => by
    refine (lined_exprs hOn args fun e he =>
      h.part (List.mem_cons_of_mem _ (List.mem_map_of_mem he))).bind fun args' hargs => ?_
    refine .behind fun found => ?_
    have hnull : LinedExpr On (.call span callee args) _ := .reported (hOn _ h)
    split
    · exact makes_localCall hnull (fun _ => .callSlot (hOn _ h) hargs)
        (fun _ => .callSlot (hOn _ h) hargs) _ _
    · exact makes_plainCall hnull S (fun _ _ _ => .callMethod (hOn _ h) hargs)
        (fun _ => .callFunction (hOn _ h) hargs) callee
  | .method span receiver method args, h => by
    have hargs := lined_exprs hOn args fun e he =>
      h.part (List.mem_cons_of_mem _ (List.mem_cons_of_mem _ (List.mem_map_of_mem he)))
    have hnull : LinedExpr On (.method span receiver method args) _ := .reported (hOn _ h)
    refine .behind fun found => ?_
    split
    · exact hargs.bind fun _ hargs =>
        makes_qualifiedCall hnull S (fun _ _ _ => .qualified (hOn _ h) hargs) _ _ _
    · exact (lined_expr hOn receiver (h.part List.mem_cons_self)).bind fun _ hobject =>
        hargs.bind fun _ hargs => makes_methodCall hnull S
          (fun _ => .document (hOn _ h) hobject hargs)
          (fun _ _ => .dynamic (hOn _ h) hobject hargs)
          (fun _ => .receiver (hOn _ h) hobject hargs) _

theorem lined_exprs (hOn : OnLines On file S) : ∀ es : List Syntax.Expr,
    (∀ e ∈ es, file.Has (.expr e)) → Makes (List.Forall₂ (LinedExpr On) es) (exprs S es)
  | [], _ => .pure .nil
  | e :: es, h =>
    (lined_expr hOn e (h e List.mem_cons_self)).bind fun _ he =>
      (lined_exprs hOn es fun e' he' => h e' (List.mem_cons_of_mem e he')).bind fun _ hes =>
        .pure (.cons he hes)

end

theorem lined_assign {span : Span} {name : Syntax.Ident} {e : Syntax.Expr} {line : Nat} {e' : Expr}
    (on : On (.stmt (.assign span name e)) line) (value : LinedExpr On e e') (ty : Ty) :
    Makes (LinedStmt On (.assign span name e)) (assign line name e' ty) := by
  refine .behind fun found => ?_
  split
  · split
    · exact .behind fun _ => .pure (.assign on value)
    · exact .pure (.assign on value)
  · exact .behind fun _ => .pure (.undeclared on value)

/-- A block behind a binding of its own. -/
theorem makes_binding {binding : Syntax.Ident} {ty : Ty} {P : List Stmt → Prop}
    {x : Resolve (List Stmt)} (hx : Makes P x) :
    Makes (fun r => P r.2) (inScope do
      let slot ← declare binding.text ty binding.span false
      let body ← inScope x
      return (slot, body)) :=
  .inScope (.behind fun _ => hx.inScope.bind fun _ h => .pure h)

mutual

theorem lined_stmt (hOn : OnLines On file S) : ∀ s : Syntax.Stmt, file.Has (.stmt s) →
    Makes (LinedStmt On s) (stmt S s)
  | .declare span name e, h =>
    (lined_expr hOn e (h.part (List.mem_cons_of_mem _ List.mem_cons_self))).bind fun _ he =>
      .behind fun _ => .pure (.declare (hOn _ h) he)
  | .assign span name e, h =>
    (lined_expr hOn e (h.part (List.mem_cons_of_mem _ List.mem_cons_self))).bind fun _ he =>
      lined_assign (hOn _ h) he _
  | .expr span e, h =>
    (lined_expr hOn e (h.part List.mem_cons_self)).bind fun _ he => .pure (.expr (hOn _ h) he)
  | .branch span branches otherwise, h => by
    refine (lined_arms hOn branches fun arm harm x hx => ?_).bind fun _ harms =>
      (lined_otherwiseArm hOn otherwise fun body hbody s hs => ?_).bind fun _ hlast =>
        .pure (.branch (hOn _ h) harms hlast)
    · exact h.part (List.mem_append_left _ (List.mem_flatMap_of_mem harm hx))
    · exact h.part (List.mem_append_right _
        (List.mem_flatMap_of_mem (Option.mem_toList.mpr hbody) (List.mem_map_of_mem hs)))
  | .loop span e body, h =>
    (lined_expr hOn e (h.part List.mem_cons_self)).bind fun _ he =>
      (lined_stmts hOn .open body fun s hs =>
        h.part (List.mem_cons_of_mem _ (List.mem_map_of_mem hs))).inScope.bind fun _ hbody =>
          .pure (.loop (hOn _ h) he hbody)
  | .forEach span binding e body, h =>
    (lined_expr hOn e (h.part (List.mem_cons_of_mem _ List.mem_cons_self))).bind fun _ he =>
      (makes_binding (lined_stmts hOn .open body fun s hs => h.part
        (List.mem_cons_of_mem _ (List.mem_cons_of_mem _ (List.mem_map_of_mem hs))))).bind
          fun _ hbody => .pure (.forEach (hOn _ h) he hbody)
  | .forRange span binding e₁ e₂ body, h =>
    (lined_expr hOn e₁ (h.part (List.mem_cons_of_mem _ List.mem_cons_self))).bind fun _ he₁ =>
      (lined_expr hOn e₂ (h.part
        (List.mem_cons_of_mem _ (List.mem_cons_of_mem _ List.mem_cons_self)))).bind fun _ he₂ =>
          (makes_binding (lined_stmts hOn .open body fun s hs => h.part (List.mem_cons_of_mem _
            (List.mem_cons_of_mem _ (List.mem_cons_of_mem _ (List.mem_map_of_mem hs)))))).bind
              fun _ hbody => .pure (.forRange (hOn _ h) he₁ he₂ hbody)
  | .result span none, h => .pure (.leave (hOn _ h))
  | .result span (some e), h =>
    (lined_expr hOn e (h.part List.mem_cons_self)).bind fun _ he => .pure (.result (hOn _ h) he)

theorem lined_stmts (hOn : OnLines On file S) : ∀ (reached : Reached) (ss : List Syntax.Stmt),
    (∀ s ∈ ss, file.Has (.stmt s)) → Makes (LinedStmts On ss) (stmts S reached ss)
  | _, [], _ => .pure .nil
  | _, s :: ss, h => .behind fun reached =>
    (lined_stmt hOn s (h s List.mem_cons_self)).bind fun _ hs =>
      (lined_stmts hOn (reached.after s) ss fun s' hs' => h s' (List.mem_cons_of_mem s hs')).bind
        fun _ hss => .pure (.cons hs hss)

theorem lined_arms (hOn : OnLines On file S) : ∀ bs : List (Syntax.Expr × List Syntax.Stmt),
    (∀ arm ∈ bs, ∀ x ∈ Syntax.Element.ofArm arm, file.Has x) → Makes (LinedArms On bs) (arms S bs)
  | [], _ => .pure .nil
  | (e, body) :: bs, h =>
    (lined_expr hOn e (h _ List.mem_cons_self _ List.mem_cons_self)).bind fun _ he =>
      (lined_stmts hOn .open body fun _ hs => h _ List.mem_cons_self _
        (List.mem_cons_of_mem _ (List.mem_map_of_mem hs))).inScope.bind fun _ hbody =>
          (lined_arms hOn bs fun arm harm => h arm (List.mem_cons_of_mem _ harm)).bind fun _ hbs =>
            .pure (.cons he hbody hbs)

theorem lined_otherwiseArm (hOn : OnLines On file S) : ∀ o : Option (List Syntax.Stmt),
    (∀ body ∈ o, ∀ s ∈ body, file.Has (.stmt s)) → Makes (LinedOtherwise On o) (otherwiseArm S o)
  | none, _ => .pure .none
  | some body, h => (lined_stmts hOn .open body (h body rfl)).inScope.bind fun _ hbody =>
    .pure (.some hbody)

end

theorem lined_body (hOn : OnLines On file S) {m : Pending} (h : file.Has (.method m.declaration)) :
    Makes (LinedStmts On m.declaration.body) (body S m) :=
  .behind fun _ => (lined_stmts hOn .open _ fun _ hs => h.part (List.mem_cons_of_mem _
    (List.mem_append_right _ (List.mem_append_right _ (List.mem_map_of_mem hs))))).inScope

end Resolve

/-! ### Sources -/

open LogCall (expand expandLine OnLine split_expand getElem?_expandLines onLine_border)

/-- The first token of the element stands on the line with the number, of the source as its author wrote
it; no other token is its first. -/
def StandsOn (source : List Char) (x : Syntax.Element) (line : Nat) : Prop :=
  ∃ t, x.FirstToken (lex (expand source)) t ∧
    (∀ t', x.FirstToken (lex (expand source)) t' → t' = t) ∧ 0 < line ∧
      OnLine source t.span.start line

theorem onLine_token {source : List Char} {t : Located} (h : t ∈ lex (expand source)) :
    OnLine source t.span.start ((LineIndex.ofSource (expand source)).line t.span.start) := by
  obtain ⟨before, after, hborder, hoffset⟩ := (Syntax.within_of_mem_lex h).start
  rw [hoffset]
  exact onLine_border hborder

theorem standsOn {source : List Char} {file : Syntax.File} {x : Syntax.Element}
    (h : Syntax.parse (expand source) = .ok file) (hx : file.Has x) :
    StandsOn source x ((LineIndex.ofSource (expand source)).line x.span.start) := by
  obtain ⟨t, ht⟩ := hx.firstToken h
  refine ⟨t, ht, fun t' ht' => ht'.unique ht, ?_, ?_⟩
  · rw [LineIndex.line_eq_count]
    exact Nat.succ_pos _
  · rw [← ht.start]
    exact onLine_token ht.mem

/-- **Lines survive**: the expansion of a source has the lines of the source, each expanded by itself with
its number.  The line of a byte is one more than the number of line feeds in front of it.  So when the
expansion is read, each statement and expression of a method's body has become one with the line on which
its first token stands, of the source as its author wrote it, also when something is wrong.  The opening
parentheses with which the tokens of an expression begin do not count. -/
theorem lines_survive (source : List Char) :
    ((Text.split (expand source) ['\n']).length = (Text.split source ['\n']).length ∧
      ∀ i : Nat, (Text.split (expand source) ['\n'])[i]? =
        ((Text.split source ['\n'])[i]?).map (expandLine (i + 1))) ∧
    (∀ (text : List Char) (offset : Nat), (LineIndex.ofSource text).line offset =
      ((text.flatMap String.utf8EncodeChar).take offset).count 10 + 1) ∧
    ∀ file, Syntax.parse (expand source) = .ok file → ∀ refs : ReferenceSet,
      List.Forall₂ (fun m m' => m.declaration ∈ file.methods ∧
          LinedStmts (StandsOn source) m.declaration.body m'.body)
        (declarations refs file).methods
        (resolve refs (LineIndex.ofSource (expand source)) file).1.methods := by
  have hline : ∀ i : Nat, (Text.split (expand source) ['\n'])[i]? =
      ((Text.split source ['\n'])[i]?).map (expandLine (i + 1)) := by
    intro i
    rw [split_expand, getElem?_expandLines, Nat.add_comm]
  refine ⟨⟨?_, hline⟩, LineIndex.line_eq_count, fun file hparse refs => ?_⟩
  · refine Nat.le_antisymm (Nat.le_of_not_lt fun h => ?_) (Nat.le_of_not_lt fun h => ?_)
    · have hlast := hline (Text.split source ['\n']).length
      rw [List.getElem?_eq_getElem h, List.getElem?_length] at hlast
      cases hlast
    · have hlast := hline (Text.split (expand source) ['\n']).length
      rw [List.getElem?_length, List.getElem?_eq_getElem h] at hlast
      cases hlast
  · show List.Forall₂ _ _ (((declarations refs file).methods.map _).map Prod.fst)
    rw [List.map_map, List.forall₂_map_right_iff, List.forall₂_same]
    intro m hm
    have hdeclared := declaration_mem refs file m hm
    refine ⟨hdeclared, ?_⟩
    exact Resolve.lined_body (fun _ => standsOn hparse) (Syntax.File.has_method _ hdeclared) {}

/-- A log call, and a quotient whose left operand stands on a line behind its opening parenthesis. -/
def parenthesised : List Char :=
  "class T \x7b\n static fn fill(document: Document, log: fn(any)) \x7b\n  log(1);
  let _x = (\n   1) / 0;\n \x7d\n\x7d\n".toList

theorem lines_survive_read : ∃ file, Syntax.parse (expand parenthesised) = .ok file ∧
    List.Forall₂ (fun m m' => m.declaration ∈ file.methods ∧
        LinedStmts (StandsOn parenthesised) m.declaration.body m'.body)
      (declarations ⟨Catalog.standard.libraries⟩ file).methods
      (resolve ⟨Catalog.standard.libraries⟩ (LineIndex.ofSource (expand parenthesised))
        file).1.methods ∧
    (resolve ⟨Catalog.standard.libraries⟩ (LineIndex.ofSource (expand parenthesised))
      file).1.methods.map (fun m => m.body.map Stmt.line) = [[3, 4]] := by
  have hlines : (Syntax.parse (expand parenthesised)).toOption.map (fun file =>
      (resolve ⟨Catalog.standard.libraries⟩ (LineIndex.ofSource (expand parenthesised))
        file).1.methods.map fun m => m.body.map Stmt.line) = some [[3, 4]] := by
    decide +kernel
  cases hparse : Syntax.parse (expand parenthesised) with
  | error ds =>
    rw [hparse] at hlines
    cases hlines
  | ok file =>
    rw [hparse] at hlines
    exact ⟨file, rfl, (lines_survive parenthesised).2.2 file hparse _, Option.some.inj hlines⟩

/-- The value of a declaration. -/
def declared? : Syntax.Stmt → Option Syntax.Expr
  | .declare _ _ e => some e
  | .assign _ _ _ | .expr _ _ | .branch _ _ _ | .loop _ _ _ | .forEach _ _ _ _ | .forRange _ _ _ _ _
  | .result _ _ => none

/-- The value that is stored in a slot. -/
def stored? : Stmt → Option Expr
  | .store _ _ e => some e
  | .expr _ _ | .branch _ _ _ | .loop _ _ _ | .forEach _ _ _ _ | .forRange _ _ _ _ _ | .result _ _ => none

/-- The operator of an operation between its operands. -/
def operation? : Syntax.Expr → Option (Span × Syntax.Expr × Syntax.BinaryOp × Syntax.Expr)
  | .binary s op l r => some (s, l, op, r)
  | .literal _ _ | .ident _ _ | .list _ _ | .unary _ _ _ | .call _ _ _ | .method _ _ _ _
  | .index _ _ _ => none

def literal? : Syntax.Expr → Option (Span × Syntax.Literal)
  | .literal s l => some (s, l)
  | .binary _ _ _ _ | .ident _ _ | .list _ _ | .unary _ _ _ | .call _ _ _ | .method _ _ _ _
  | .index _ _ _ => none

theorem literal_of_literal? {e : Syntax.Expr} {s : Span} {l : Syntax.Literal}
    (h : literal? e = some (s, l)) : e = .literal s l := by
  cases e <;> simp_all [literal?]

theorem binary_of_operation? {e l r : Syntax.Expr} {s : Span} {op : Syntax.BinaryOp}
    (h : operation? e = some (s, l, op, r)) : e = .binary s op l r := by
  cases e <;> simp_all [operation?]

/-- The tokens of the quotient begin on the fourth line, and it is told to stand on the fifth. -/
theorem lines_survive_parenthesised : ∃ file m s e,
    Syntax.parse (expand parenthesised) = .ok file ∧ file.methods[0]? = some m ∧
    m.body[1]? = some s ∧ declared? s = some e ∧
    (∃ t v, t :: v <:+: lex (expand parenthesised) ∧ Syntax.Derives Syntax.Grammar.expr (t :: v) e ∧
      (LineIndex.ofSource (expand parenthesised)).line t.span.start = 4) ∧
    ∃ m' s' e', (resolve ⟨Catalog.standard.libraries⟩ (LineIndex.ofSource (expand parenthesised))
        file).1.methods[0]? = some m' ∧
      m'.body[1]? = some s' ∧ stored? s' = some e' ∧ e'.line = 5 := by
  have hread : (Syntax.parse (expand parenthesised)).toOption.bind (fun file =>
      file.methods[0]?.bind fun m => m.body[1]?.bind fun s => (declared? s).bind fun e =>
        (operation? e).bind fun o => (literal? o.2.1).bind fun l => (literal? o.2.2.2).map fun r =>
          (o.1, l, o.2.2.1, r)) =
      some (⟨109, 115⟩, (⟨109, 110⟩, .int 1), .div, ⟨114, 115⟩, .int 0) := by
    decide +kernel
  have hmade : (Syntax.parse (expand parenthesised)).toOption.bind (fun file =>
      (resolve ⟨Catalog.standard.libraries⟩ (LineIndex.ofSource (expand parenthesised))
        file).1.methods[0]?.bind fun m => m.body[1]?.bind fun s => (stored? s).map Expr.line) =
      some 5 := by
    decide +kernel
  have hrow : ((lex (expand parenthesised)).drop 35).take 5 =
      [⟨.symbol .parenOpen, ⟨104, 105⟩⟩, ⟨.int 1, ⟨109, 110⟩⟩, ⟨.symbol .parenClose, ⟨110, 111⟩⟩,
        ⟨.symbol .slash, ⟨112, 113⟩⟩, ⟨.int 0, ⟨114, 115⟩⟩] := by
    decide +kernel
  have hquotient : Syntax.Derives Syntax.Grammar.expr
      [⟨.symbol .parenOpen, ⟨104, 105⟩⟩, ⟨.int 1, ⟨109, 110⟩⟩, ⟨.symbol .parenClose, ⟨110, 111⟩⟩,
        ⟨.symbol .slash, ⟨112, 113⟩⟩, ⟨.int 0, ⟨114, 115⟩⟩]
      (.binary ⟨109, 115⟩ .div (.literal ⟨109, 110⟩ (.int 1)) (.literal ⟨114, 115⟩ (.int 0))) :=
    Syntax.Grammar.derives_quotient rfl rfl rfl rfl rfl
  cases hparse : Syntax.parse (expand parenthesised) with
  | error ds =>
    rw [hparse] at hread
    cases hread
  | ok file =>
    rw [hparse] at hread hmade
    simp only [Except.toOption, Option.bind_some, Option.bind_eq_some_iff, Option.map_eq_some_iff,
      Prod.mk.injEq] at hread hmade
    obtain ⟨m, hm, s, hs, e, he, o, ho, l, hl, r, hr, hspan, rfl, hop, rfl⟩ := hread
    obtain ⟨m', hm', s', hs', e', he', hline⟩ := hmade
    have hvalue : e = .binary ⟨109, 115⟩ .div (.literal ⟨109, 110⟩ (.int 1))
        (.literal ⟨114, 115⟩ (.int 0)) := by
      rw [binary_of_operation? ho, literal_of_literal? hl, literal_of_literal? hr, hspan, hop]
    refine ⟨file, m, s, e, rfl, hm, hs, he, ⟨_, _, ?_, hvalue ▸ hquotient, ?_⟩, m', s', e', hm', hs',
      he', hline⟩
    · rw [← hrow]
      exact ((List.take_prefix _ _).isInfix).trans (List.drop_suffix _ _).isInfix
    · decide +kernel

end Program

end ReportTemplate
