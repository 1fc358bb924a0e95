import ReportTemplate.Proofs.Syntax.Calls
import ReportTemplate.Proofs.Syntax.Literals

/-!
# ReportTemplate.Proofs.Syntax.Grammar — where the calls of a source come from

A call by a name was read where its name stands among the tokens, and literals behind its bracket with
commas behind them are its first arguments.  `ReadFrom ts` is this property of a call, and each rule of
the grammar gives trees in which all calls have it.
-/

namespace ReportTemplate.Syntax

open ReportTemplate.Syntax.Parser

/-! ### Calls of a source -/

/-- A call was read from some tokens: its name is one of them, and two literals with commas behind them
that stand behind its bracket are its first arguments. -/
def ReadFrom (ts : List Located) (callee : Ident) (args : List Expr) : Prop :=
  ∃ t rest, t :: rest <:+ ts ∧ callee.span.start = t.span.start ∧
    ∀ (t₁ t₂ : Token) (l₁ l₂ : Literal) (more : List Token),
      rest.map Located.token =
        .symbol .parenOpen :: t₁ :: .symbol .comma :: t₂ :: .symbol .comma :: more →
      literalOf? t₁ = some l₁ → literalOf? t₂ = some l₂ →
      ∃ s₁ s₂ others, args = .literal s₁ l₁ :: .literal s₂ l₂ :: others

section

variable {ts : List Located}

theorem reads_ident : Reads ts ident fun _ => True :=
  (Reads.token (Q := fun _ => True) [] fun _ _ _ => trivial).spanned.bind fun _ _ => .pure trivial

theorem reads_literal {P : Ident → List Expr → Prop} : Reads ts literal (Expr.Calls P) :=
  (Reads.token (Q := fun _ => True) [] fun _ _ _ => trivial).spanned.bind fun _ _ => .pure trivial

/-- What a suffix brings into an expression. -/
def suffixCalls (P : Ident → List Expr → Prop) : Suffix → Prop
  | .method _ args => Expr.AllCalls P args
  | .index place => place.Calls P

theorem calls_withSuffix {P : Ident → List Expr → Prop} {e : Expr} (he : e.Calls P) :
    ∀ {s : Suffix × Span}, suffixCalls P s.1 → (withSuffix e s).Calls P
  | (.method _ _, _), hs => ⟨he, hs⟩
  | (.index _, _), hs => ⟨he, hs⟩

section

variable {P : Ident → List Expr → Prop} {expr : Parser Expr} (h : Reads ts expr (Expr.Calls P))

include h

theorem reads_args : Reads ts (args expr) (Expr.AllCalls P) :=
  (h.items _ _).mono fun _ => Expr.allCalls_of_forall

theorem reads_list : Reads ts (list expr) (Expr.Calls P) :=
  (h.items _ _).spanned.bind fun _ hitems => .pure (Expr.allCalls_of_forall hitems)

theorem reads_methodSuffix : Reads ts (methodSuffix expr) (suffixCalls P) := by
  have hargs := reads_args h
  refine (Reads.exactly _).bind fun _ _ => ?_
  refine reads_ident.bind fun _ _ => ?_
  exact hargs.bind fun _ hall => .pure hall

theorem reads_indexSuffix : Reads ts (indexSuffix expr) (suffixCalls P) :=
  (h.between _ _).bind fun _ hindex => .pure hindex

end

variable {expr : Parser Expr}

theorem result_ident_some {c c' : Cursor} {name : Ident} (h : result ident c = some (name, c')) :
    ∃ t rest, c.rest = t :: rest ∧ name.span.start = t.span.start ∧ c'.rest = rest := by
  obtain ⟨⟨text, span⟩, c₁, hspanned, hdone⟩ := result_bind_some h
  obtain ⟨rfl, rfl⟩ := result_pure_some hdone
  obtain ⟨htoken, rfl⟩ := result_spanned_some hspanned
  obtain ⟨t, rest, hrest, -, rfl⟩ := result_token_some htoken
  refine ⟨t, rest, hrest, ?_, rfl⟩
  show c.start = t.span.start
  unfold Cursor.start
  rw [hrest]

theorem reads_call (hread : Reads ts expr (Expr.Calls (ReadFrom ts))) (hliteral : ReadsLiteral expr) :
    Reads ts (call expr) (Expr.Calls (ReadFrom ts)) := by
  intro c c' e hc hr
  obtain ⟨⟨⟨callee, es⟩, span⟩, c₁, hspanned, hdone⟩ := result_bind_some hr
  obtain ⟨rfl, rfl⟩ := result_pure_some hdone
  obtain ⟨hpair, -⟩ := result_spanned_some hspanned
  obtain ⟨name, c₂, hname, hrest⟩ := result_bind_some hpair
  obtain ⟨es', c₃, hargs, hrest⟩ := result_bind_some hrest
  obtain ⟨heq, rfl⟩ := result_pure_some hrest
  obtain ⟨rfl, rfl⟩ := Prod.mk.inj heq
  obtain ⟨hc₂, -⟩ := reads_ident c c₂ callee hc hname
  obtain ⟨hc', hall⟩ := reads_args hread c₂ c' es hc₂ hargs
  -- The name is the token at the cursor, and the arguments are read right behind it.
  obtain ⟨t, rest, hcursor, hstart, rfl⟩ := result_ident_some hname
  have hsuffix : t :: c₂.rest <:+ ts := by
    rw [← hcursor, ← hc]
    exact List.drop_suffix _ _
  refine ⟨hc', ⟨t, _, hsuffix, hstart, fun t₁ t₂ l₁ l₂ more htokens h₁ h₂ => ?_⟩, hall⟩
  exact result_args_literals hliteral hargs htokens h₁ h₂

end

/-! ### The grammar -/

section

variable {ts : List Located}

theorem reads_operator : ∀ ops : List (Symbol × BinaryOp), Reads ts (operator ops) fun _ => True
  | [] => .stuck
  | [(_, _)] => (Reads.exactly _).bind fun _ _ => .pure trivial
  | (_, _) :: o :: ops =>
    ((Reads.exactly _).bind fun _ _ => .pure trivial).either (reads_operator (o :: ops))

theorem reads_unaryOp : Reads ts unaryOp fun _ => True :=
  ((Reads.exactly _).bind fun _ _ => .pure trivial).either
    ((Reads.exactly _).bind fun _ _ => .pure trivial)

section

variable {P : Ident → List Expr → Prop}

theorem calls_foldl_suffixes {suffixes : List (Suffix × Span)} (h : ∀ s ∈ suffixes, suffixCalls P s.1)
    {e : Expr} (he : e.Calls P) : (suffixes.foldl withSuffix e).Calls P := by
  induction suffixes generalizing e with
  | nil => exact he
  | cons s suffixes ih =>
    obtain ⟨hs, hrest⟩ := List.forall_mem_cons.mp h
    exact ih hrest (calls_withSuffix he hs)

theorem calls_foldr_unary {e : Expr} (he : e.Calls P) : ∀ ops : List (UnaryOp × Span),
    (ops.foldr (fun (op, span) e => Expr.unary ⟨span.start, e.span.stop⟩ op e) e).Calls P
  | [] => he
  | _ :: ops => calls_foldr_unary he ops

theorem calls_foldl_binary {more : List (BinaryOp × Expr)} (h : ∀ r ∈ more, r.2.Calls P) {e : Expr}
    (he : e.Calls P) :
    (more.foldl (fun l (op, r) => Expr.binary ⟨l.span.start, r.span.stop⟩ op l r) e).Calls P := by
  induction more generalizing e with
  | nil => exact he
  | cons r more ih =>
    obtain ⟨hr, hrest⟩ := List.forall_mem_cons.mp h
    exact ih hrest ⟨he, hr⟩

theorem reads_leftChain (ops : List (Symbol × BinaryOp)) {operand : Parser Expr}
    (h : Reads ts operand (Expr.Calls P)) : Reads ts (leftChain ops operand) (Expr.Calls P) := by
  have hop : Reads ts (operator ops) fun _ => True := reads_operator ops
  have hmore := (hop.bind fun op _ => h.bind (R := fun r => r.2.Calls P)
    fun right hright => .pure (a := (op, right)) hright).many
  exact h.bind fun _ hfirst => hmore.bind fun _ hall => .pure (calls_foldl_binary hall hfirst)

theorem reads_levels {levels : List (List (Symbol × BinaryOp))} {operand : Parser Expr}
    (h : Reads ts operand (Expr.Calls P)) :
    Reads ts (levels.foldl (fun operand ops => leftChain ops operand) operand) (Expr.Calls P) := by
  induction levels generalizing operand with
  | nil => exact h
  | cons ops levels ih => exact ih (reads_leftChain ops h)

end

section

variable {expr : Parser Expr} (hread : Reads ts expr (Expr.Calls (ReadFrom ts)))
  (hliteral : ReadsLiteral expr)

include hread hliteral

theorem reads_atom : Reads ts (atom expr) (Expr.Calls (ReadFrom ts)) := by
  have hname : Reads ts variableName (Expr.Calls (ReadFrom ts)) :=
    reads_ident.bind fun _ _ => .pure trivial
  refine reads_literal.either ?_
  refine (reads_call hread hliteral).either ?_
  refine hname.either ?_
  exact (reads_list hread).either (hread.between _ _)

theorem reads_suffixed : Reads ts (suffixed expr) (Expr.Calls (ReadFrom ts)) := by
  have hsuffixes := ((reads_methodSuffix hread).either (reads_indexSuffix hread)).spanned.many
  refine (reads_atom hread hliteral).bind fun _ he => ?_
  exact hsuffixes.bind fun _ hs => .pure (calls_foldl_suffixes hs he)

theorem reads_unary : Reads ts (unary expr) (Expr.Calls (ReadFrom ts)) := by
  have hsuffixed := reads_suffixed hread hliteral
  refine reads_unaryOp.spanned.many.bind fun ops _ => ?_
  exact hsuffixed.bind fun _ he => .pure (calls_foldr_unary he ops)

end

theorem reads_exprWithin (depth : Nat) : Reads ts (exprWithin depth) (Expr.Calls (ReadFrom ts)) := by
  induction depth with
  | zero => exact Reads.stuck
  | succ depth ih =>
    rw [exprWithin_succ]
    exact reads_levels (reads_unary ih (readsLiteral_exprWithin depth))

theorem reads_expr : Reads ts expr (Expr.Calls (ReadFrom ts)) :=
  Reads.atCursor (f := fun c => exprWithin (c.rest.length + 1)) fun _ => reads_exprWithin _

theorem reads_typeWithin (depth : Nat) : Reads ts (typeWithin depth) fun _ => True := by
  induction depth with
  | zero => exact Reads.stuck
  | succ depth ih =>
    have hcallback : Reads ts (callbackType (typeWithin depth)) fun _ => True :=
      (((Reads.exactly _).bind fun _ _ => ih.items _ _).spanned).bind fun _ _ => .pure trivial
    have hnamed : Reads ts namedType fun _ => True := reads_ident.bind fun _ _ => .pure trivial
    have hsucc : typeWithin (depth + 1) =
        labelled "type" (either (callbackType (typeWithin depth)) namedType) := by
      funext c
      rw [typeWithin]
    rw [hsucc]
    exact hcallback.either hnamed

theorem reads_type : Reads ts type fun _ => True :=
  Reads.atCursor (f := fun c => typeWithin (c.rest.length + 1)) fun _ => reads_typeWithin _

section

variable {block : Parser (List Stmt)} (h : Reads ts block (Stmt.AllCalls (ReadFrom ts)))

theorem reads_declaration : Reads ts declaration (Stmt.Calls (ReadFrom ts)) := by
  refine (Reads.spanned (Q := fun r => r.2.Calls (ReadFrom ts)) ?_).bind fun _ he => .pure he
  refine (Reads.exactly _).bind fun _ _ => ?_
  refine reads_ident.bind fun _ _ => ?_
  refine (Reads.exactly _).bind fun _ _ => ?_
  refine reads_expr.bind fun _ he => ?_
  exact (Reads.exactly _).bind fun _ _ => .pure he

theorem reads_assignment : Reads ts assignment (Stmt.Calls (ReadFrom ts)) := by
  refine (Reads.spanned (Q := fun r => r.2.Calls (ReadFrom ts)) ?_).bind fun _ he => .pure he
  refine reads_ident.bind fun _ _ => ?_
  refine (Reads.exactly _).bind fun _ _ => ?_
  refine reads_expr.bind fun _ he => ?_
  exact (Reads.exactly _).bind fun _ _ => .pure he

theorem reads_exprStmt : Reads ts exprStmt (Stmt.Calls (ReadFrom ts)) := by
  refine (Reads.spanned (Q := Expr.Calls (ReadFrom ts)) ?_).bind fun _ he => .pure he
  refine reads_expr.bind fun _ he => ?_
  exact (Reads.exactly _).bind fun _ _ => .pure he

theorem reads_returnStmt : Reads ts returnStmt (Stmt.Calls (ReadFrom ts)) := by
  refine (Reads.spanned (Q := fun o => ∀ e ∈ o, e.Calls (ReadFrom ts)) ?_).bind ?_
  · refine (Reads.exactly _).bind fun _ _ => ?_
    refine reads_expr.optional.bind fun _ ho => ?_
    exact (Reads.exactly _).bind fun _ _ => .pure ho
  · rintro ⟨_ | e, span⟩ ho
    · exact .pure trivial
    · exact .pure (ho e rfl)

include h

theorem reads_guarded : Reads ts (guarded block) fun b =>
    b.1.Calls (ReadFrom ts) ∧ Stmt.AllCalls (ReadFrom ts) b.2 := by
  refine reads_expr.bind fun _ he => ?_
  exact h.bind fun _ hbody => .pure ⟨he, hbody⟩

theorem reads_whileStmt : Reads ts (whileStmt block) (Stmt.Calls (ReadFrom ts)) := by
  have hguarded := reads_guarded h
  exact (Reads.spanned ((Reads.exactly _).bind fun _ _ => hguarded)).bind fun _ hb => .pure hb

theorem reads_ifStmt : Reads ts (ifStmt block) (Stmt.Calls (ReadFrom ts)) := by
  have helse : Reads ts (exactly (.keyword .elseKw)) fun _ => True := .exactly _
  have hmore := (helse.bind fun _ _ =>
    (Reads.exactly (.keyword .ifKw)).bind fun _ _ => reads_guarded h).many
  have hlast := (helse.bind fun _ _ => h).optional
  refine (Reads.spanned (Q := fun r : List (Expr × List Stmt) × Option (List Stmt) =>
    Stmt.ArmsCalls (ReadFrom ts) r.1 ∧ Stmt.OtherwiseCalls (ReadFrom ts) r.2) ?_).bind
    fun _ hb => .pure hb
  refine (Reads.exactly _).bind fun _ _ => ?_
  refine (reads_guarded h).bind fun first hfirst => ?_
  refine hmore.bind fun more hall => ?_
  refine hlast.bind fun last ho => .pure ⟨?_, ?_⟩
  · exact Stmt.armsCalls_of_forall (List.forall_mem_cons.mpr ⟨hfirst, hall⟩)
  · cases last with
    | none => trivial
    | some body => exact ho body rfl

theorem reads_forStmt : Reads ts (forStmt block) (Stmt.Calls (ReadFrom ts)) := by
  have hdots : Reads ts (exactly (.symbol .dotDot)) fun _ => True := .exactly _
  have hstop := (hdots.bind fun _ _ => reads_expr).optional
  refine (Reads.spanned (Q := fun r => r.2.1.Calls (ReadFrom ts) ∧
    (∀ e ∈ r.2.2.1, e.Calls (ReadFrom ts)) ∧ Stmt.AllCalls (ReadFrom ts) r.2.2.2) ?_).bind ?_
  · refine (Reads.exactly _).bind fun _ _ => ?_
    refine reads_ident.bind fun _ _ => ?_
    refine (Reads.exactly _).bind fun _ _ => ?_
    refine reads_expr.bind fun _ he => ?_
    refine hstop.bind fun _ ho => ?_
    exact h.bind fun _ hbody => .pure ⟨he, ho, hbody⟩
  · -- Without a second bound the loop goes over a list, with one over a range.
    rintro ⟨⟨binding, start, _ | stop, body⟩, span⟩ ⟨hstart, hstop, hbody⟩
    · exact .pure ⟨hstart, hbody⟩
    · exact .pure ⟨hstart, hstop stop rfl, hbody⟩

theorem reads_stmt : Reads ts (stmt block) (Stmt.Calls (ReadFrom ts)) := by
  refine reads_declaration.either ?_
  refine (reads_ifStmt h).either ?_
  refine (reads_whileStmt h).either ?_
  refine (reads_forStmt h).either ?_
  exact reads_returnStmt.either (reads_assignment.either reads_exprStmt)

end

theorem reads_blockWithin (depth : Nat) :
    Reads ts (blockWithin depth) (Stmt.AllCalls (ReadFrom ts)) := by
  induction depth with
  | zero => exact Reads.stuck
  | succ depth ih =>
    have hsucc : blockWithin (depth + 1) =
        between .braceOpen .braceClose (many (stmt (blockWithin depth))) := by
      funext c
      rw [blockWithin]
    rw [hsucc]
    exact ((reads_stmt ih).many.between _ _).mono fun _ => Stmt.allCalls_of_forall

theorem reads_block : Reads ts block (Stmt.AllCalls (ReadFrom ts)) :=
  Reads.atCursor (f := fun c => blockWithin (c.rest.length + 1)) fun _ => reads_blockWithin _

theorem reads_param : Reads ts param fun _ => True :=
  reads_ident.bind fun _ _ => (Reads.exactly _).bind fun _ _ => reads_type.bind fun _ _ =>
    .pure trivial

theorem reads_method : Reads ts method fun m => Stmt.AllCalls (ReadFrom ts) m.body := by
  have harrow : Reads ts (exactly (.symbol .arrow)) fun _ => True := .exactly _
  have hreturns := (harrow.bind fun _ _ => reads_type).optional
  refine (Reads.spanned (Q := fun r => Stmt.AllCalls (ReadFrom ts) r.2.2.2.2) ?_).bind
    fun _ hbody => .pure hbody
  refine (Reads.exactly _).optional.bind fun _ _ => ?_
  refine (Reads.exactly _).bind fun _ _ => ?_
  refine reads_ident.bind fun _ _ => ?_
  refine (reads_param.items _ _).bind fun _ _ => ?_
  refine hreturns.bind fun _ _ => ?_
  exact reads_block.bind fun _ hbody => .pure hbody

/-- The calls of all methods of a class were read from some tokens. -/
def Class.Read (ts : List Located) (c : Class) : Prop :=
  ∀ m ∈ c.allMethods, Stmt.AllCalls (ReadFrom ts) m.body

theorem Class.read_mk {span : Span} {name : Ident} {members : List (Method ⊕ Class)}
    (hmethods : ∀ m, .inl m ∈ members → Stmt.AllCalls (ReadFrom ts) m.body)
    (hclasses : ∀ c, .inr c ∈ members → Class.Read ts c) : (Class.mk span name members).Read ts := by
  intro m hm
  rcases List.mem_append.mp hm with hm | hm
  · obtain ⟨x, hx, hleft⟩ := List.mem_filterMap.mp hm
    cases x with
    | inl m' =>
      obtain rfl : m' = m := Option.some.inj hleft
      exact hmethods m' hx
    | inr _ => cases hleft
  · obtain ⟨c, hc, hm⟩ := Class.mem_nestedMethods hm
    exact hclasses c hc m hm

theorem reads_classOf {inner : Parser Class} (h : Reads ts inner (Class.Read ts)) :
    Reads ts (classOf inner) (Class.Read ts) := by
  have hmethod : Reads ts (Sum.inl <$> method : Parser (Method ⊕ Class))
      (Sum.elim (fun m => Stmt.AllCalls (ReadFrom ts) m.body) (Class.Read ts)) :=
    reads_method.map fun _ hm => hm
  have hinner : Reads ts (Sum.inr <$> inner : Parser (Method ⊕ Class))
      (Sum.elim (fun m => Stmt.AllCalls (ReadFrom ts) m.body) (Class.Read ts)) :=
    h.map fun _ hc => hc
  have hmembers := ((hmethod.either hinner).many).between .braceOpen .braceClose
  refine (Reads.spanned (Q := fun r => ∀ x ∈ r.2, Sum.elim
    (fun m => Stmt.AllCalls (ReadFrom ts) m.body) (Class.Read ts) x) ?_).bind ?_
  · refine (Reads.exactly _).bind fun _ _ => ?_
    refine reads_ident.bind fun _ _ => ?_
    exact hmembers.bind fun _ hall => .pure hall
  · rintro ⟨⟨name, members⟩, span⟩ hall
    exact .pure (Class.read_mk (fun m hm => hall (.inl m) hm) fun c hc => hall (.inr c) hc)

theorem reads_classWithin (depth : Nat) : Reads ts (classWithin depth) (Class.Read ts) := by
  induction depth with
  | zero => exact Reads.stuck
  | succ depth ih =>
    have hsucc : classWithin (depth + 1) = classOf (classWithin depth) := by
      funext c
      rw [classWithin]
    rw [hsucc]
    exact reads_classOf ih

theorem reads_classDecl : Reads ts classDecl (Class.Read ts) :=
  Reads.atCursor (f := fun c => classWithin (c.rest.length + 1)) fun _ => reads_classWithin _

end

/-- A source with a syntax tree is read to its end, and no digits that were read are out of range. -/
theorem result_of_parse {source : List Char} {file : File} (h : parse source = .ok file) :
    ∃ c, result (many classDecl) ⟨0, 0, lex source⟩ = some (file.classes, c) ∧ c.rest = [] ∧
      outOfRanges ((lex source).take c.index) = [] := by
  unfold parse parseTokens at h
  split at h
  · cases h
  · next classes c e hmany =>
    have hresult : result (many classDecl) ⟨0, 0, lex source⟩ = some (classes, c) :=
      congrArg Prod.fst hmany
    dsimp only at h
    split at h
    · next hrest =>
      split at h
      · next hreported =>
        obtain rfl := Except.ok.inj h
        exact ⟨c, hresult, hrest, List.isEmpty_iff.mp hreported⟩
      · cases h
    · cases h
    · cases h

/-- **Calls of a source**: every call by a name in a source that was read begins with its name among the
tokens of the source, and has the literals behind its bracket as its first arguments. -/
theorem calls_of_parse {source : List Char} {file : File} (h : parse source = .ok file) :
    ∀ m ∈ file.methods, Stmt.AllCalls (ReadFrom (lex source)) m.body := by
  obtain ⟨c, hresult, -, -⟩ := result_of_parse h
  obtain ⟨-, hread⟩ := reads_classDecl.many ⟨0, 0, lex source⟩ c file.classes rfl hresult
  intro m hm
  obtain ⟨cl, hcl, hm⟩ := List.mem_flatMap.mp hm
  exact hread cl hcl m hm

theorem isOutOfRange_of_parse {source : List Char} {file : File} (h : parse source = .ok file) :
    ∀ t ∈ lex source, Token.isOutOfRange t.token = false := by
  obtain ⟨c, hresult, hrest, hreported⟩ := result_of_parse h
  have hread : Reads (lex source) (many classDecl) fun cs => ∀ c ∈ cs, c.Read (lex source) :=
    reads_classDecl.many
  obtain ⟨hend, -⟩ := hread ⟨0, 0, lex source⟩ c file.classes rfl hresult
  -- Nothing is left behind the cursor, so what was read is everything.
  have htake : (lex source).take c.index = lex source :=
    List.take_of_length_le (List.drop_eq_nil_iff.mp (hend.trans hrest))
  rw [htake] at hreported
  intro t ht
  have hnot := List.filter_eq_nil_iff.mp (List.map_eq_nil_iff.mp hreported) t ht
  exact Bool.eq_false_iff.mpr hnot

end ReportTemplate.Syntax
