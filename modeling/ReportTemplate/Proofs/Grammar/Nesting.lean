import Mathlib.Data.List.Pairwise
import ReportTemplate.Proofs.Grammar.Layout
import ReportTemplate.Proofs.Program.Ranges

/-!
# ReportTemplate.Proofs.Grammar.Nesting — the spans of a tree nest

Each rule of the grammar lays out the elements of its construct.  As the tokens of a source stand behind
one another, the spans of the parts of a node lie inside its span, one behind the other.
-/

namespace ReportTemplate.Syntax

open Phrase

variable {n : Nat}

namespace Grammar

/-! ## Names and operands -/

theorem lays_ident : Lays n ident fun i => [.name i] :=
  (Lays.none n _).node (fun _ _ => rfl) (fun _ _ => rfl) fun _ _ _ => trivial

theorem lays_literal : Lays n literal fun e => [.expr e] :=
  (Lays.none n _).node (fun _ _ => rfl) (fun _ _ => rfl) fun _ _ _ => trivial

theorem lays_variableName : Lays n variableName fun e => [.expr e] :=
  Lays.map fun u i hu hder => (lays_ident u i hu hder).renamed rfl rfl fun _ => trivial

/-! ## Operators -/

/-- Each prefix operator makes an expression that ends where the one behind it does. -/
theorem laid_prefixes {ops : List (UnaryOp × Span)} {u v : List Located} {e : Expr}
    (he : Laid v [.expr e]) (hder : Derives (.many (.spanned unaryOp)) u ops) :
    Laid (u ++ v)
      [.expr (ops.foldr (fun op e => .unary ⟨op.2.start, e.span.stop⟩ op.1 e) e)] := by
  induction ops generalizing u with
  | nil => exact he.behind u
  | cons op ops ih =>
    obtain ⟨w, u, rfl, hhead, htail⟩ := hder.forms
    obtain ⟨t, w, rfl, hstart, -⟩ := hhead.forms
    rw [List.append_assoc]
    refine (ih htail).prefixed ?_ rfl fun _ => trivial
    rw [List.foldr_cons, hstart]
    rfl

/-- Each operator with its right operand makes an expression that begins where the left one does. -/
theorem laid_operands {op : Phrase BinaryOp} {operand : Phrase Expr}
    (h : Lays n operand fun e => [.expr e]) {more : List (BinaryOp × Expr)} {u v : List Located}
    {e : Expr} (he : Laid u [.expr e]) (hv : v.length < n)
    (hder : Derives (.many (.seq op operand)) v more) :
    Laid (u ++ v)
      [.expr (more.foldl (fun l r => .binary ⟨l.span.start, r.2.span.stop⟩ r.1 l r.2) e)] := by
  induction more generalizing u v e with
  | nil => exact he.front v
  | cons x more ih =>
    obtain ⟨w, v, rfl, hhead, htail⟩ := hder.forms
    obtain ⟨w₁, w₂, rfl, -, hright⟩ := hhead.forms
    simp only [List.length_append] at hv
    have hoperand : Laid w₂ [.expr x.2] := h w₂ x.2 (by omega) hright
    have hlonger : Laid (u ++ (w₁ ++ w₂)) [.expr (.binary ⟨e.span.start, x.2.span.stop⟩ x.1 e x.2)] :=
      he.pair (hoperand.behind w₁) rfl rfl fun _ => trivial
    have hall := ih hlonger (by omega) htail
    rwa [List.append_assoc] at hall

theorem lays_leftChain (ops : List (Symbol × BinaryOp)) {operand : Phrase Expr}
    (h : Lays n operand fun e => [.expr e]) : Lays n (leftChain ops operand) fun e => [.expr e] := by
  cases ops with
  | nil => exact h
  | cons o ops =>
    refine Lays.map fun w x hw hder => ?_
    obtain ⟨u, v, rfl, hfirst, hmore⟩ := hder.forms
    rw [List.length_append] at hw
    exact laid_operands h (h u x.1 (by omega) hfirst) (by omega) hmore

theorem lays_levels (ls : List (List (Symbol × BinaryOp))) {operand : Phrase Expr}
    (h : Lays n operand fun e => [.expr e]) :
    Lays n (ls.foldl (fun operand ops => leftChain ops operand) operand) fun e => [.expr e] := by
  induction ls generalizing operand with
  | nil => exact h
  | cons ops ls ih => exact ih (lays_leftChain ops h)

/-! ## Expressions -/

section Expressions

variable (hexpr : Lays n expr fun e => [.expr e])

include hexpr

theorem lays_args : Lays (n + 1) args (List.map .expr) := hexpr.elements.1.between

theorem lays_call : Lays (n + 1) call fun e => [.expr e] :=
  (lays_ident.seq (lays_args hexpr)).node (fun _ _ => rfl) (fun _ _ => rfl) fun _ _ _ => trivial

theorem lays_list : Lays (n + 1) list fun e => [.expr e] :=
  hexpr.elements.1.between.node (fun _ _ => rfl) (fun _ _ => rfl) fun _ _ _ => trivial

theorem lays_operand : Lays (n + 1) operand fun e => [.expr e] :=
  lays_literal.either ((lays_call hexpr).either (lays_variableName.either
    ((lays_list hexpr).either hexpr.between)))

/-- What a suffix brings into an expression. -/
def suffixParts : Suffix → List Element
  | .method callee args => .name callee :: args.map .expr
  | .index place => [.expr place]

theorem lays_suffix : Lays (n + 1) (.either methodSuffix indexSuffix) suffixParts := by
  have hmethod : Lays (n + 1) methodSuffix suffixParts :=
    Lays.map ((lays_ident.seq ((lays_args hexpr).mono (Nat.le_succ n))).before _)
  have hindex : Lays (n + 1) indexSuffix suffixParts := Lays.map hexpr.between
  exact hmethod.either hindex

/-- Each suffix makes an expression that begins where the one in front of it does. -/
theorem laid_suffixes {xs : List (Suffix × Span)} {u v : List Located} {e : Expr}
    (he : Laid u [.expr e]) (hv : v.length < n + 1)
    (hder : Derives (.many (.spanned (.either methodSuffix indexSuffix))) v xs) :
    Laid (u ++ v) [.expr (xs.foldl withSuffix e)] := by
  induction xs generalizing u v e with
  | nil => exact he.front v
  | cons x xs ih =>
    obtain ⟨w, v, rfl, hhead, htail⟩ := hder.forms
    obtain ⟨t, w, rfl, hstop, hsuffix⟩ := hhead.forms
    rw [List.length_append] at hv
    have hparts : Laid (t :: w) (suffixParts x.1) :=
      lays_suffix hexpr (t :: w) x.1 (by omega) hsuffix
    have hlonger : Laid (u ++ t :: w) [.expr (withSuffix e x)] := by
      obtain ⟨suffix, span⟩ := x
      obtain rfl : span = cover t w := hstop
      cases suffix with
      | method callee args => exact he.extend hparts rfl rfl fun _ => trivial
      | index place => exact he.extend hparts rfl rfl fun _ => trivial
    have hall := ih hlonger (by omega) htail
    rwa [List.append_assoc] at hall

theorem lays_suffixed : Lays (n + 1) suffixed fun e => [.expr e] := by
  refine Lays.map fun w x hw hder => ?_
  obtain ⟨u, v, rfl, hfirst, hsuffixes⟩ := hder.forms
  rw [List.length_append] at hw
  have hoperand : Laid u [.expr x.1] := (lays_operand hexpr).labelled u x.1 (by omega) hfirst
  exact laid_suffixes hexpr hoperand (by omega) hsuffixes

theorem lays_unary : Lays (n + 1) unary fun e => [.expr e] := by
  refine Lays.map fun w x hw hder => ?_
  obtain ⟨u, v, rfl, hops, hoperand⟩ := hder.forms
  rw [List.length_append] at hw
  exact laid_prefixes (lays_suffixed hexpr v x.2 (by omega) hoperand) hops

theorem lays_operation : Lays (n + 1) operation fun e => [.expr e] :=
  lays_levels levels (lays_unary hexpr)

end Expressions

/-! ## Types -/

section Types

variable (htype : Lays n type fun t => [.type t])

include htype

theorem lays_typeBody : Lays (n + 1) typeBody fun t => [.type t] := by
  have hcallback : Lays (n + 1) callbackType fun t => [.type t] :=
    ((htype.elements.1.between.mono (Nat.le_succ n)).before _).node (fun _ _ => rfl)
      (fun _ _ => rfl) fun _ _ _ => trivial
  have hnamed : Lays (n + 1) namedType fun t => [.type t] :=
    Lays.map fun u i hu hder => (lays_ident u i hu hder).renamed rfl rfl fun _ => trivial
  exact hcallback.either hnamed

end Types

/-! ## Statements -/

section Statements

variable (hexpr : Lays n expr fun e => [.expr e]) (hblock : Lays n block (List.map .stmt))

include hexpr

theorem lays_assigned : Lays (n + 1) (.seq (after ident (symbol .equals)) (after expr (symbol .semicolon)))
    fun x => [.name x.1, .expr x.2] := (lays_ident.after _).seq (hexpr.after _)

theorem lays_declaration : Lays (n + 1) declaration fun s => [.stmt s] :=
  (((lays_assigned hexpr).mono (Nat.le_succ n)).before _).node (fun _ _ => rfl) (fun _ _ => rfl)
    fun _ _ h => .left h

theorem lays_assignment : Lays (n + 1) assignment fun s => [.stmt s] :=
  (lays_assigned hexpr).node (fun _ _ => rfl) (fun _ _ => rfl)
    fun _ _ h => .right (.right (.right (.right (.right (.left h)))))

theorem lays_exprStmt : Lays (n + 1) exprStmt fun s => [.stmt s] :=
  (hexpr.after _).node (fun _ _ => rfl) (fun _ _ => rfl)
    fun _ _ h => .right (.right (.right (.right (.right (.right h)))))

theorem lays_returnStmt : Lays (n + 1) returnStmt fun s => [.stmt s] := by
  have hvalue : Lays (n + 1) (before (keyword .returnKw) (after (.optional expr) (symbol .semicolon)))
      fun o => o.toList.map .expr := by
    have hoptional := hexpr.optional
    simp only [← List.map_eq_flatMap] at hoptional
    exact ((hoptional.after _).mono (Nat.le_succ n)).before _
  exact hvalue.node (fun _ _ => rfl) (fun _ _ => rfl)
    fun _ _ h => .right (.right (.right (.right (.left h))))

include hblock

theorem lays_guard : Lays n guard Element.ofArm := hexpr.seq hblock

theorem lays_ifStmt : Lays (n + 1) ifStmt fun s => [.stmt s] := by
  have hguard : Lays n guard Element.ofArm := lays_guard hexpr hblock
  have helseIf : Lays n elseIf Element.ofArm :=
    (((hguard.before (.keyword .ifKw)).mono (Nat.le_succ n)).before (.keyword .elseKw)).mono
      (Nat.le_succ n)
  have hotherwise : Lays n otherwise (List.map .stmt) :=
    (hblock.before (.keyword .elseKw)).mono (Nat.le_succ n)
  have hparts : Lays (n + 1) (.map (fun x => (x.1 :: x.2.1, x.2.2)) (before (keyword .ifKw)
      (.seq guard (.seq (.many elseIf) (.optional otherwise)))))
      fun x => x.1.flatMap Element.ofArm ++ x.2.toList.flatMap (List.map .stmt) := by
    refine Lays.map ?_
    simp only [List.flatMap_cons, List.append_assoc]
    exact (hguard.seq (helseIf.many.seq hotherwise.optional)).before _
  exact hparts.node (fun _ _ => rfl) (fun _ _ => rfl) fun _ _ h => .right (.left h)

theorem lays_whileStmt : Lays (n + 1) whileStmt fun s => [.stmt s] :=
  ((lays_guard hexpr hblock).before _).node (fun _ _ => rfl) (fun _ _ => rfl)
    fun _ _ h => .right (.right (.left h))

theorem lays_forStmt : Lays (n + 1) forStmt fun s => [.stmt s] := by
  have hstop : Lays n (.optional (before (symbol .dotDot) expr))
      fun o => o.toList.flatMap fun e => [.expr e] :=
    ((hexpr.before _).mono (Nat.le_succ n)).optional
  have hhead := ((lays_ident.after (.keyword .inKw)).mono (Nat.le_succ n)).seq
    (hexpr.seq (hstop.seq hblock))
  refine (hhead.before (.keyword .forKw)).node (fun x s => ?_) (fun x s => ?_)
    fun _ _ h => .right (.right (.right (.left h)))
  · obtain ⟨binding, start, stop, body⟩ := x
    cases stop <;> rfl
  · obtain ⟨binding, start, stop, body⟩ := x
    cases stop <;> rfl

theorem lays_stmt : Lays (n + 1) stmt fun s => [.stmt s] :=
  (lays_declaration hexpr).either ((lays_ifStmt hexpr hblock).either
    ((lays_whileStmt hexpr hblock).either ((lays_forStmt hexpr hblock).either
      ((lays_returnStmt hexpr).either ((lays_assignment hexpr).either (lays_exprStmt hexpr))))))

theorem lays_blockBody : Lays (n + 1) blockBody (List.map .stmt) :=
  ((lays_stmt hexpr hblock).mono (Nat.le_succ n)).labelled.elements.2.between

end Statements

/-! ## Classes -/

section Classes

variable (htype : Lays n type fun t => [.type t]) (hblock : Lays n block (List.map .stmt))
  (hclass : Lays n (.rule .classDecl) fun c => [.classDecl c])

include htype

theorem lays_param : Lays n param Element.ofParam :=
  Lays.map (((lays_ident.after _).mono (Nat.le_succ n)).seq htype)

include hblock

theorem lays_method : Lays (n + 1) method fun m => [.method m] := by
  have hparams : Lays n (between .parenOpen .parenClose (.items param))
      fun ps => ps.flatMap Element.ofParam :=
    (lays_param htype).items.between.mono (Nat.le_succ n)
  have hreturns : Lays n (.optional (before (symbol .arrow) type)) fun o => o.toList.map .type := by
    have hoptional := ((htype.before (.symbol .arrow)).mono (Nat.le_succ n)).optional
    simp only [← List.map_eq_flatMap] at hoptional
    exact hoptional
  have hrest := lays_ident.seq (hparams.seq (hreturns.seq hblock))
  have hall := (Lays.none (n + 1) (.map Option.isSome
    (after (.optional (keyword .staticKw)) (keyword .fnKw)))).seqBehind rfl rfl hrest
  exact hall.node (fun _ _ => rfl) (fun _ _ => rfl) fun _ _ h => h

include hclass

theorem lays_classBody : Lays (n + 1) classBody fun c => [.classDecl c] := by
  have hmethod : Lays n (.map Sum.inl method) fun x => [Element.ofMember x] :=
    Lays.map ((lays_method htype hblock).mono (Nat.le_succ n))
  have hinner : Lays n (.map Sum.inr (.rule .classDecl)) fun x => [Element.ofMember x] :=
    Lays.map hclass
  have hmembers : Lays (n + 1) (.between .braceOpen .braceClose _) _ :=
    (hmethod.either hinner).elements.2.between
  refine ((lays_ident.seq (hmembers.mono (Nat.le_succ n))).before _).node (fun _ _ => rfl)
    (fun _ _ => rfl) fun _ _ h => .rule h

end Classes

/-! ## Sources -/

/-- What is shown of the constructs that occur inside themselves. -/
structure LaysRules (n : Nat) : Prop where
  expr : Lays n expr fun e => [.expr e]
  type : Lays n type fun t => [.type t]
  block : Lays n block (List.map .stmt)
  classDecl : Lays n (.rule .classDecl) fun c => [.classDecl c]

theorem laysRules (n : Nat) : LaysRules n := by
  induction n with
  | zero => exact ⟨Lays.zero _ _, Lays.zero _ _, Lays.zero _ _, Lays.zero _ _⟩
  | succ n ih =>
    exact {
      expr := (lays_operation ih.expr).rule
      type := (lays_typeBody ih.type).labelled.rule
      block := (lays_blockBody ih.expr ih.block).rule
      classDecl := (lays_classBody ih.type ih.block ih.classDecl).rule }

theorem lays_file (u : List Located) (f : File) (h : Derives file u f) :
    Laid u (f.classes.map .classDecl) := by
  obtain ⟨cs, rfl, hmany⟩ := h.forms
  exact (laysRules (u.length + 1)).classDecl.elements.2 u cs (Nat.lt_succ_self u.length) hmany

end Grammar

/-! ## Spans of tokens in order -/

/-- The tokens stand behind one another, and each has a text. -/
structure InOrder (ts : List Located) : Prop where
  ordered : ts.Pairwise fun s t => s.span.stop ≤ t.span.start
  nonempty : ∀ t ∈ ts, t.span.start < t.span.stop

theorem inOrder_lex (source : List Char) : InOrder (lex source) where
  ordered := (Lexer.lex_lossless source).2.1
  nonempty t ht := ((Lexer.lex_lossless source).2.2 t ht).1

namespace InOrder

variable {ts u v : List Located}

theorem mono (h : InOrder ts) (hu : u <:+: ts) : InOrder u :=
  ⟨h.ordered.sublist hu.sublist, fun t ht => h.nonempty t (hu.subset ht)⟩

/-- The span of a row holds the spans of all its tokens. -/
theorem cover_mem {t : Located} (h : InOrder (t :: v)) :
    ∀ s ∈ t :: v, t.span.start ≤ s.span.start ∧ s.span.stop ≤ (cover t v).stop := by
  have hstops : (t :: v).Pairwise fun s s' => s.span.stop ≤ s'.span.stop := by
    refine h.ordered.imp_of_mem fun {s s'} _ hs' hle => ?_
    have hlt := h.nonempty s' hs'
    omega
  intro s hs
  constructor
  · rcases List.mem_cons.mp hs with rfl | hs
    · exact Nat.le_refl _
    · have hle := (List.pairwise_cons.mp h.ordered).1 s hs
      have hlt := h.nonempty t List.mem_cons_self
      omega
  · have hlast := hstops.rel_getLast_of_rel_getLast_getLast hs (Nat.le_refl _)
    rwa [List.getLast_eq_getLastD, List.getLastD_eq_getLast?] at hlast

theorem cover_lt {t : Located} (h : InOrder (t :: v)) :
    t.span.start < (cover t v).stop := by
  have hfirst := h.nonempty t List.mem_cons_self
  have hle := (h.cover_mem t List.mem_cons_self).2
  omega

/-- The span of a row lies inside that of a row around it. -/
theorem cover_infix {t s : Located} {w : List Located} (h : InOrder (s :: w)) (hv : t :: v <:+: s :: w) :
    s.span.start ≤ t.span.start ∧ (cover t v).stop ≤ (cover s w).stop :=
  ⟨(h.cover_mem t (hv.subset List.mem_cons_self)).1,
    (h.cover_mem _ (hv.subset (getLast_mem t v))).2⟩

/-- Elements that are laid out stand in the order of their tokens. -/
theorem pairwise_laid {xs : List Element} (h : InOrder u) (hlaid : Laid u xs) :
    xs.Pairwise fun y z => y.span.stop ≤ z.span.start := by
  induction xs generalizing u with
  | nil => exact .nil
  | cons x xs ih =>
    cases hlaid with
    | @cons v w _ _ gap head tail =>
      have hw : w <:+: gap ++ (v ++ w) := Grammar.infix_behind gap v w
      refine List.pairwise_cons.mpr ⟨fun y hy => ?_, ih (h.mono hw) tail⟩
      obtain ⟨w', hw', hstands⟩ := tail.mem y hy
      cases head with
      | @node t v _ hx =>
        cases hstands with
        | @node t' v' _ hy =>
          rw [hx, hy]
          have hrow := (List.pairwise_append.mp (List.pairwise_append.mp h.ordered).2.1).2.2
          exact hrow _ (getLast_mem t v) t' (hw'.subset List.mem_cons_self)

end InOrder

/-! ## The nodes of a source -/

/-- The span of an element is not empty and goes from a token to the same or a later one; the spans of
its parts lie inside it, one behind the other; and if it is a statement, method or class, the tokens that
its span goes over are those that it is read from. -/
structure Element.Nests (ts : List Located) (x : Element) : Prop where
  nonempty : x.span.start < x.span.stop
  tokens : ∃ s ∈ ts, ∃ t ∈ ts, x.span = ⟨s.span.start, t.span.stop⟩
  inside : ∀ y ∈ x.parts, x.span.start ≤ y.span.start ∧ y.span.stop ≤ x.span.stop
  ordered : x.parts.Pairwise fun y z => y.span.stop ≤ z.span.start
  exact : ∃ t v, t :: v <:+: ts ∧ x.span = cover t v ∧ x.Sentence (t :: v)

theorem Stands.nests {ts u : List Located} {x : Element} (h : Stands u x) (hts : InOrder ts)
    (hu : u <:+: ts) : x.Nests ts := by
  cases h with
  | @node t v _ hspan hsentence hparts =>
    have hrow : InOrder (t :: v) := hts.mono hu
    exact {
      nonempty := by
        rw [hspan]
        exact hrow.cover_lt
      tokens := ⟨t, hu.subset List.mem_cons_self, _, hu.subset (getLast_mem t v), hspan⟩
      inside := by
        intro y hy
        obtain ⟨w, hw, hstands⟩ := hparts.mem y hy
        cases hstands with
        | @node t' v' _ hy =>
          rw [hspan, hy]
          exact hrow.cover_infix hw
      ordered := hrow.pairwise_laid hparts
      exact := ⟨t, v, hu, hspan, hsentence⟩ }

theorem File.Has.stands {f : File} {ts : List Located} (hlaid : Laid ts (f.classes.map .classDecl))
    {x : Element} (h : f.Has x) : ∃ u, u <:+: ts ∧ Stands u x := by
  induction h with
  | classDecl mem => exact hlaid.mem _ (List.mem_map_of_mem mem)
  | @part x y _ mem ih =>
    obtain ⟨u, hu, hstands⟩ := ih
    cases hstands with
    | node _ _ hparts =>
      obtain ⟨v, hv, hstands⟩ := hparts.mem y mem
      exact ⟨v, hv.trans hu, hstands⟩

/-- **The spans of a tree nest**: for every source that is read, at every node. -/
theorem spans_nest {source : List Char} {f : File} (h : parse source = .ok f) :
    (∀ x, f.Has x → x.Nests (lex source)) ∧
      f.classes.Pairwise fun c d => c.span.stop ≤ d.span.start := by
  have hlaid := Grammar.lays_file _ f (derives_of_parse h)
  have hts := inOrder_lex source
  refine ⟨fun x hx => ?_, List.pairwise_map.mp (hts.pairwise_laid hlaid)⟩
  obtain ⟨u, hu, hstands⟩ := hx.stands hlaid
  exact hstands.nests hts hu

/-- A method that returns a product with a sum in parentheses. -/
def grouped : String := "class T \x7b static fn f(a: int) \x7b return (a + 1) * a; \x7d \x7d"

/-- The product begins behind the opening parenthesis, with the sum, and both its operands lie in it. -/
theorem spans_nest_grouped : ∃ f x, parse grouped.toList = .ok f ∧ f.Has x ∧
    x.span = ⟨40, 50⟩ ∧ x.parts.map Element.span = [⟨40, 45⟩, ⟨49, 50⟩] ∧
    x.Nests (lex grouped.toList) := by
  have hfound : (parse grouped.toList).toOption.map (fun f =>
      (((f.classes.flatMap Element.ofClass).flatMap Element.parts).flatMap Element.parts).map
        fun x => (x.span, x.parts.map Element.span)) =
      some [(⟨40, 50⟩, [⟨40, 45⟩, ⟨49, 50⟩])] := by
    decide +kernel
  cases hparse : parse grouped.toList with
  | error ds =>
    rw [hparse] at hfound
    cases hfound
  | ok f =>
    rw [hparse] at hfound
    obtain ⟨x, hx, hspans⟩ := List.map_eq_singleton_iff.mp (Option.some.inj hfound)
    obtain ⟨hspan, hparts⟩ := Prod.mk.inj hspans
    have hmem : x ∈ [x] := List.mem_singleton_self x
    rw [← hx] at hmem
    obtain ⟨s, hs, hxs⟩ := List.mem_flatMap.mp hmem
    obtain ⟨m, hm, hsm⟩ := List.mem_flatMap.mp hs
    obtain ⟨c, hc, hmc⟩ := List.mem_flatMap.mp hm
    have hhas : f.Has x := ((File.Has.classDecl hc).part hmc |>.part hsm).part hxs
    exact ⟨f, x, rfl, hhas, hspan, hparts, (spans_nest hparse).1 x hhas⟩

end ReportTemplate.Syntax
