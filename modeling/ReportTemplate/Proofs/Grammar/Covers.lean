import ReportTemplate.Proofs.Grammar.Parts
import ReportTemplate.Proofs.Syntax.Spans

/-!
# ReportTemplate.Proofs.Grammar.Covers — where the spans of a tree come from

Every span in the tree of a sentence goes from the start of one of its tokens to the end of the same or a
later one.  A span that is put together from two parts begins in the one that stands in front.
-/

namespace ReportTemplate.Syntax

variable {α β : Type}

/-! ### Spans of tokens in a row -/

/-- The span goes from one of the tokens to the same or a later one. -/
def Covered (u : List Located) (s : Span) : Prop := ∃ t v, t :: v <:+: u ∧ s = cover t v

theorem covered_cover (t : Located) (v : List Located) : Covered (t :: v) (cover t v) :=
  ⟨t, v, List.infix_rfl, rfl⟩

theorem Covered.mono {u w : List Located} {s : Span} (h : Covered u s) (hw : u <:+: w) :
    Covered w s := by
  obtain ⟨t, v, hv, rfl⟩ := h
  exact ⟨t, v, hv.trans hw, rfl⟩

/-- The last token of a row decides where its span ends. -/
theorem cover_append (t : Located) (x : List Located) (t' : Located) (v : List Located) :
    cover t (x ++ t' :: v) = ⟨t.span.start, (cover t' v).stop⟩ := by
  unfold cover
  rw [List.getLast?_append, List.getLast?_cons]
  rfl

/-- From the start of a span to the end of one behind it. -/
theorem Covered.join {u v : List Located} {s s' : Span} (h : Covered u s) (h' : Covered v s')
    (gap : List Located) : Covered (u ++ (gap ++ v)) ⟨s.start, s'.stop⟩ := by
  obtain ⟨t, m, ⟨x, y, rfl⟩, rfl⟩ := h
  obtain ⟨t', m', ⟨x', y', rfl⟩, rfl⟩ := h'
  refine ⟨t, (m ++ y ++ gap ++ x') ++ t' :: m', ⟨x, y', ?_⟩, ?_⟩
  · simp only [List.append_assoc, List.cons_append]
  · rw [cover_append]
    rfl

/-! ### Trees whose spans are such -/

/-- Whatever holds of all spans of the tokens holds of those in the tree. -/
def Spread (S : (Span → Prop) → α → Prop) (u : List Located) (a : α) : Prop :=
  ∀ P : Span → Prop, (∀ s, Covered u s → P s) → S P a

theorem Spread.mono {S : (Span → Prop) → α → Prop} {u w : List Located} {a : α}
    (h : Spread S u a) (hw : u <:+: w) : Spread S w a :=
  fun P hP => h P fun s hs => hP s (hs.mono hw)

/-- What is shown of the constructs that occur inside themselves. -/
def Placed : Known
  | _, .expr => Spread Expr.Spans
  | _, .type => Spread TypeExpr.Spans
  | _, .block => Spread Stmt.AllSpans
  | _, .classDecl => Spread Class.Spans

namespace Phrase

/-- Every span in a tree of the phrase is one of tokens in a row. -/
def Spreads (p : Phrase α) (S : (Span → Prop) → α → Prop) : Prop :=
  ∀ u a, p.Parts @Placed u a → Spread S u a

namespace Spreads

variable {p : Phrase α} {q : Phrase β} {S : (Span → Prop) → α → Prop} {T : (Span → Prop) → β → Prop}

/-- A tree without spans. -/
theorem any (p : Phrase α) : p.Spreads fun _ _ => True := fun _ _ _ _ _ => trivial

theorem map {f : α → β} (h : p.Spreads S) (hf : ∀ P a, S P a → T P (f a)) :
    (Phrase.map f p).Spreads T := by
  rintro u b ⟨a, rfl, ha⟩ P hP
  exact hf P a (h u a ha P hP)

theorem seq (hp : p.Spreads S) (hq : q.Spreads T) :
    (Phrase.seq p q).Spreads fun P x => S P x.1 ∧ T P x.2 := by
  rintro w x ⟨u, v, rfl, hu, hv⟩ P hP
  have hleft : Spread S (u ++ v) x.1 := (hp u _ hu).mono (List.infix_append' [] u v)
  have hright : Spread T (u ++ v) x.2 := (hq v _ hv).mono (List.suffix_append u v).isInfix
  exact ⟨hleft P hP, hright P hP⟩

theorem before (p : Phrase α) (hq : q.Spreads T) : (Phrase.before p q).Spreads T :=
  ((any p).seq hq).map fun _ _ h => h.2

theorem after (hp : p.Spreads S) (q : Phrase β) : (Phrase.after p q).Spreads S :=
  (hp.seq (any q)).map fun _ _ h => h.1

theorem between {opening closing : Symbol} (hp : p.Spreads S) :
    (Phrase.between opening closing p).Spreads S :=
  (hp.after _).before _

theorem either {p' : Phrase α} (hp : p.Spreads S) (hp' : p'.Spreads S) :
    (Phrase.either p p').Spreads S := by
  rintro u a (ha | ha)
  · exact hp u a ha
  · exact hp' u a ha

theorem optional (hp : p.Spreads S) : (Phrase.optional p).Spreads fun P o => ∀ a ∈ o, S P a :=
  fun u _ ho P hP a ha => hp u a (ho a ha) P hP

theorem row (hp : p.Spreads S) {u : List Located} {as : List α} (h : Row (p.Parts @Placed) u as) :
    Spread (fun P as => ∀ a ∈ as, S P a) u as := by
  induction h with
  | nil => exact fun P hP => nofun
  | @cons u v a as gap head _ ih =>
    intro P hP
    have hhead : Spread S (u ++ (gap ++ v)) a := (hp u a head).mono (List.infix_append' [] _ _)
    have hv : v <:+: u ++ (gap ++ v) :=
      ((List.suffix_append gap v).trans (List.suffix_append u _)).isInfix
    exact List.forall_mem_cons.mpr ⟨hhead P hP, ih.mono hv P hP⟩

theorem many (hp : p.Spreads S) : (Phrase.many p).Spreads fun P as => ∀ a ∈ as, S P a :=
  fun _ _ h => hp.row h

theorem items (hp : p.Spreads S) : (Phrase.items p).Spreads fun P as => ∀ a ∈ as, S P a :=
  fun _ _ h => hp.row h

theorem spanned (hp : p.Spreads S) : (Phrase.spanned p).Spreads fun P x => P x.2 ∧ S P x.1 := by
  rintro u ⟨a, s⟩ ⟨t, v, rfl, rfl, ha⟩ P hP
  exact ⟨hP _ (covered_cover t v), hp _ a ha P hP⟩

theorem labelled {l : Label} (hp : p.Spreads S) : (Phrase.labelled l p).Spreads S := hp

end Spreads

end Phrase

namespace Grammar

open Phrase

/-! ### Names and operands -/

/-- The property of the span of a name. -/
def NameSpan (P : Span → Prop) (name : Ident) : Prop := P name.span

theorem spreads_ident : ident.Spreads NameSpan :=
  (Spreads.any _).spanned.map fun _ _ h => h.1

theorem spreads_expr : expr.Spreads Expr.Spans := fun _ _ h => h

theorem spreads_args : args.Spreads Expr.AllSpans := by
  have hargs : args.Spreads fun P es => ∀ e ∈ es, e.Spans P := spreads_expr.items.between
  exact fun u es h P hP => Expr.allSpans_iff.mpr (hargs u es h P hP)

theorem spreads_literal : literal.Spreads Expr.Spans :=
  (Spreads.any _).spanned.map fun _ _ h => h.1

theorem spreads_call : call.Spreads Expr.Spans :=
  (spreads_ident.seq spreads_args).spanned.map fun _ _ h => h

theorem spreads_variableName : variableName.Spreads Expr.Spans := spreads_ident.map fun _ _ h => h

theorem spreads_list : list.Spreads Expr.Spans :=
  spreads_expr.items.between.spanned.map fun _ _ h => ⟨h.1, Expr.allSpans_iff.mpr h.2⟩

theorem spreads_operand : operand.Spreads Expr.Spans :=
  spreads_literal.either (spreads_call.either (spreads_variableName.either
    (spreads_list.either spreads_expr.between)))

/-! ### Suffixes and operators -/

theorem infix_behind (u gap v : List Located) : v <:+: u ++ (gap ++ v) :=
  ((List.suffix_append gap v).trans (List.suffix_append u _)).isInfix

/-- What is put together from the left out of parts that stand behind one another. -/
theorem spread_foldl (stop : α → Span) {S : (Span → Prop) → α → Prop} {f : Expr → α → Expr}
    (hf : ∀ P e a, P ⟨e.span.start, (stop a).stop⟩ → e.Spans P → S P a → (f e a).Spans P)
    {R : List Located → α → Prop}
    (hR : ∀ v a, R v a → Spread (fun P a => P (stop a) ∧ S P a) v a) {v : List Located} {as : List α}
    (h : Row R v as) : ∀ {u : List Located} {e : Expr}, Spread Expr.Spans u e →
      Spread Expr.Spans (u ++ v) (as.foldl f e) := by
  induction h with
  | nil => exact fun he => he.mono (List.infix_append' [] _ _)
  | @cons v w a as gap head _ ih =>
    intro u e he
    have ha := hR v a head
    have hlonger : Spread Expr.Spans (u ++ (v ++ gap)) (f e a) := by
      intro P hP
      have hstart : Covered u e.span := (he (Covered u) fun _ hs => hs).whole
      have hstop : Covered v (stop a) := (ha (Covered v) fun _ hs => hs).1
      have hv : v <:+: u ++ (v ++ gap) := List.infix_append' u v gap
      refine hf P e a (hP _ ?_) (he.mono (List.infix_append' [] u _) P hP) (ha.mono hv P hP).2
      exact (hstart.join hstop []).mono ⟨[], gap, by simp⟩
    have := ih hlonger
    rwa [List.append_assoc, List.append_assoc] at this

/-- Every span in what stands behind an expression has a property. -/
def SuffixSpans (P : Span → Prop) : Suffix → Prop
  | .method callee args => P callee.span ∧ Expr.AllSpans P args
  | .index e => e.Spans P

theorem spreads_suffix : (Phrase.either methodSuffix indexSuffix).Spreads SuffixSpans := by
  have hmethod : methodSuffix.Spreads SuffixSpans :=
    ((spreads_ident.seq spreads_args).before _).map fun _ _ h => h
  have hindex : indexSuffix.Spreads SuffixSpans := spreads_expr.between.map fun _ _ h => h
  exact hmethod.either hindex

theorem spans_withSuffix (P : Span → Prop) (e : Expr) (x : Suffix × Span)
    (hspan : P ⟨e.span.start, x.2.stop⟩) (he : e.Spans P) (hx : SuffixSpans P x.1) :
    (withSuffix e x).Spans P := by
  obtain ⟨suffix, span⟩ := x
  cases suffix with
  | method callee args => exact ⟨hspan, he, hx⟩
  | index place => exact ⟨hspan, he, hx⟩

theorem spreads_suffixed : suffixed.Spreads Expr.Spans := by
  rintro w e ⟨⟨first, xs⟩, rfl, u, v, rfl, hfirst, hxs⟩
  exact spread_foldl Prod.snd spans_withSuffix (fun v x => spreads_suffix.spanned v x) hxs
    (spreads_operand u first hfirst)

/-- A prefix operator begins where it stands and ends with its operand. -/
theorem spread_prefixes {u v : List Located} {e : Expr} {ops : List (UnaryOp × Span)}
    (he : Spread Expr.Spans v e) (h : Row ((Phrase.spanned unaryOp).Parts @Placed) u ops) :
    Spread Expr.Spans (u ++ v)
      (ops.foldr (fun op e => .unary ⟨op.2.start, e.span.stop⟩ op.1 e) e) := by
  induction h with
  | nil => exact he.mono (List.suffix_append _ v).isInfix
  | @cons u w op ops gap head _ ih =>
    intro P hP
    have hstart : Covered u op.2 := ((Spreads.any _).spanned u op head (Covered u) fun _ hs => hs).1
    have hstop := (ih (Covered (w ++ v)) fun _ hs => hs).whole
    rw [List.append_assoc, List.append_assoc] at hP
    exact ⟨hP _ (hstart.join hstop gap), ih.mono (infix_behind u gap _) P hP⟩

theorem spreads_unary : unary.Spreads Expr.Spans := by
  rintro w e ⟨⟨ops, operand⟩, rfl, u, v, rfl, hops, hoperand⟩
  exact spread_prefixes (spreads_suffixed v operand hoperand) hops

theorem spreads_leftChain (ops : List (Symbol × BinaryOp)) {operand : Phrase Expr}
    (h : operand.Spreads Expr.Spans) : (leftChain ops operand).Spreads Expr.Spans := by
  cases ops with
  | nil => exact h
  | cons o ops =>
    rintro w e ⟨⟨first, more⟩, rfl, u, v, rfl, hfirst, hmore⟩
    refine spread_foldl (fun x => x.2.span) (S := fun P x => x.2.Spans P) ?_ (fun v x hx P hP => ?_)
      hmore (h u first hfirst)
    · exact fun P l r hspan hl hr => ⟨hspan, hl, hr⟩
    · have hright : x.2.Spans P := ((Spreads.any (operator o ops)).seq h v x hx P hP).2
      exact ⟨hright.whole, hright⟩

theorem spreads_levels (ls : List (List (Symbol × BinaryOp))) {operand : Phrase Expr}
    (h : operand.Spreads Expr.Spans) :
    (ls.foldl (fun operand ops => leftChain ops operand) operand).Spreads Expr.Spans := by
  induction ls generalizing operand with
  | nil => exact h
  | cons ops ls ih => exact ih (spreads_leftChain ops h)

theorem spreads_operation : operation.Spreads Expr.Spans := spreads_levels levels spreads_unary

/-! ### Types -/

theorem spreads_type : type.Spreads TypeExpr.Spans := fun _ _ h => h

theorem spreads_typeBody : typeBody.Spreads TypeExpr.Spans := by
  have hcallback : callbackType.Spreads TypeExpr.Spans :=
    (spreads_type.items.between.before _).spanned.map fun _ _ h =>
      ⟨h.1, TypeExpr.allSpans_iff.mpr h.2⟩
  have hnamed : namedType.Spreads TypeExpr.Spans := spreads_ident.map fun _ _ h => h
  exact hcallback.either hnamed

/-! ### Statements -/

theorem spreads_block : block.Spreads Stmt.AllSpans := fun _ _ h => h

theorem spreads_declaration : declaration.Spreads Stmt.Spans :=
  (((spreads_ident.after _).seq (spreads_expr.after _)).before _).spanned.map fun _ _ h => h

theorem spreads_assignment : assignment.Spreads Stmt.Spans :=
  ((spreads_ident.after _).seq (spreads_expr.after _)).spanned.map fun _ _ h => h

theorem spreads_exprStmt : exprStmt.Spreads Stmt.Spans :=
  (spreads_expr.after _).spanned.map fun _ _ h => h

theorem spreads_returnStmt : returnStmt.Spreads Stmt.Spans := by
  refine ((spreads_expr.optional.after _).before _).spanned.map fun P x h => ?_
  obtain ⟨value, span⟩ := x
  cases value with
  | none => exact h.1
  | some value => exact ⟨h.1, h.2 value rfl⟩

theorem spreads_guard : guard.Spreads fun P x => x.1.Spans P ∧ Stmt.AllSpans P x.2 :=
  spreads_expr.seq spreads_block

theorem spreads_ifStmt : ifStmt.Spreads Stmt.Spans := by
  have hmore := ((spreads_guard.before (keyword .ifKw)).before (keyword .elseKw)).many
  have hotherwise := (spreads_block.before (keyword .elseKw)).optional
  have hparts : (Phrase.map (fun x => (x.1 :: x.2.1, x.2.2)) (before (keyword .ifKw)
      (.seq guard (.seq (.many elseIf) (.optional otherwise))))).Spreads
        fun P x => Stmt.ArmsSpans P x.1 ∧ Stmt.OtherwiseSpans P x.2 := by
    refine ((spreads_guard.seq (hmore.seq hotherwise)).before _).map ?_
    rintro P ⟨first, more, otherwise⟩ ⟨hfirst, hmore, hotherwise⟩
    refine ⟨Stmt.armsSpans_iff.mpr (List.forall_mem_cons.mpr ⟨hfirst, hmore⟩), ?_⟩
    cases otherwise with
    | none => trivial
    | some body => exact hotherwise body rfl
  exact hparts.spanned.map fun _ _ h => h

theorem spreads_whileStmt : whileStmt.Spreads Stmt.Spans :=
  (spreads_guard.before _).spanned.map fun _ _ h => h

theorem spreads_forStmt : forStmt.Spreads Stmt.Spans := by
  have hstop := (spreads_expr.before (symbol .dotDot)).optional
  refine (((spreads_ident.after _).seq (spreads_expr.seq (hstop.seq spreads_block))).before
    _).spanned.map ?_
  rintro P ⟨⟨binding, start, stop, body⟩, span⟩ ⟨hspan, hbinding, hstart, hstop, hbody⟩
  cases stop with
  | none => exact ⟨hspan, hbinding, hstart, hbody⟩
  | some stop => exact ⟨hspan, hbinding, hstart, hstop stop rfl, hbody⟩

theorem spreads_stmt : stmt.Spreads Stmt.Spans :=
  spreads_declaration.either (spreads_ifStmt.either (spreads_whileStmt.either
    (spreads_forStmt.either (spreads_returnStmt.either (spreads_assignment.either
      spreads_exprStmt)))))

theorem spreads_blockBody : blockBody.Spreads Stmt.AllSpans :=
  fun u ss h P hP => Stmt.allSpans_iff.mpr (spreads_stmt.labelled.many.between u ss h P hP)

/-! ### Classes and sources -/

theorem spreads_param : param.Spreads fun P p => p.Spans P :=
  ((spreads_ident.after _).seq spreads_type).map fun _ _ h => h

theorem spreads_method : method.Spreads fun P m => m.Spans P := by
  have hparams : (between .parenOpen .parenClose (.items param)).Spreads
      fun P ps => ∀ p ∈ ps, p.Spans P := spreads_param.items.between
  have hreturns := (spreads_type.before (symbol .arrow)).optional
  refine ((Spreads.any _).seq (spreads_ident.seq (hparams.seq
    (hreturns.seq spreads_block)))).spanned.map ?_
  rintro P x ⟨hspan, -, hname, hparams, hreturns, hbody⟩
  exact ⟨hspan, hname, hparams, hreturns, hbody⟩

theorem spreads_classBody : classBody.Spreads Class.Spans := by
  have hinner : (Phrase.rule Nonterminal.classDecl).Spreads Class.Spans := fun _ _ h => h
  have hmethod : (Phrase.map Sum.inl method).Spreads Class.MemberSpans :=
    spreads_method.map fun _ _ h => h
  have hmember : (Phrase.map Sum.inr (.rule .classDecl)).Spreads Class.MemberSpans :=
    hinner.map fun _ _ h => h
  refine (((spreads_ident.seq (hmethod.either hmember).many.between).before _).spanned).map fun P x h => ?_
  exact ⟨h.1, h.2.1, Class.allSpans_iff.mpr h.2.2⟩

end Grammar

/-- Every span in the tree of a sentence goes from one of its tokens to the same or a later one. -/
theorem spread_of_derives {p : Phrase α} {S : (Span → Prop) → α → Prop} (hp : p.Spreads S)
    {u : List Located} {a : α} (h : Derives p u a) : Spread S u a := by
  refine hp u a (h.parts fun n u a hparts => ?_)
  cases n with
  | expr => exact Grammar.spreads_operation u a hparts
  | type => exact Grammar.spreads_typeBody.labelled u a hparts
  | block => exact Grammar.spreads_blockBody u a hparts
  | classDecl => exact Grammar.spreads_classBody u a hparts

theorem spread_file {u : List Located} {f : File} (h : Derives Grammar.file u f) :
    Spread (fun P f => f.Spans P) u f := by
  have hclass : (Phrase.rule Nonterminal.classDecl).Spreads Class.Spans := fun _ _ h => h
  have hfile : Grammar.file.Spreads fun P f => f.Spans P := hclass.many.map fun _ _ h => h
  exact spread_of_derives hfile h

end ReportTemplate.Syntax
