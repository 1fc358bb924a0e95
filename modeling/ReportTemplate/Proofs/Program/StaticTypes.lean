import ReportTemplate.Proofs.Program.Untyped

/-!
# ReportTemplate.Proofs.Program.StaticTypes — what is known of the types of locals

Two views of one place may differ in what they know of the types of locals: where one of them says
`any`, the other may name a type, as long as this is not the document.  Static types follow the text,
so the views keep this relation from statement to statement.  They decide how a method call on a
receiver is resolved and nothing else, and there the call of a function does what the call does that
finds the function at run time.  So what is resolved under both views runs alike, failures included.
-/

namespace ReportTemplate

/-- A type that says no more than another one, and hides no document. -/
def Ty.Vaguer (t u : Ty) : Prop := t = u ∨ t = .any ∧ u ≠ .document

namespace Ty.Vaguer

variable {t u w : Ty}

theorem refl (t : Ty) : t.Vaguer t := .inl rfl

theorem trans (h : t.Vaguer u) (h' : u.Vaguer w) : t.Vaguer w := by
  rcases h with rfl | ⟨rfl, hu⟩
  · exact h'
  · rcases h' with rfl | ⟨-, hw⟩
    · exact .inr ⟨rfl, hu⟩
    · exact .inr ⟨rfl, hw⟩

theorem document_iff (h : t.Vaguer u) : t = .document ↔ u = .document := by
  rcases h with rfl | ⟨rfl, hu⟩
  · exact Iff.rfl
  · exact iff_of_false (by simp) hu

end Ty.Vaguer

theorem ReferenceSet.function?_name {refs : ReferenceSet} {name : String} {g : Function}
    (hg : refs.function? name = some g) : g.name = name := by
  have hname := List.find?_some hg
  exact of_decide_eq_true hname

namespace Program

open Scoped (typeOf receiverType? assignType calledType methodType)
open Resolve (binaryType unaryType)

/-! ### Static types of expressions -/

theorem vaguer_unaryType (op : Syntax.UnaryOp) {t u : Ty} (h : t.Vaguer u) :
    (unaryType op t).Vaguer (unaryType op u) := by
  rcases h with rfl | ⟨rfl, -⟩
  · exact .refl _
  · cases op with
    | negate => exact .inr ⟨rfl, by cases u <;> simp [unaryType]⟩
    | not => exact .refl _

theorem binaryType_ne_document (op : Syntax.BinaryOp) (t u : Ty) : binaryType op t u ≠ .document := by
  have harithmetic : binaryType.arithmetic t u ≠ .document := by
    unfold binaryType.arithmetic
    split <;> simp
  cases op with
  | add =>
    unfold binaryType
    dsimp only
    split
    · simp
    · split
      · simp
      · exact harithmetic
  | sub | mul | div | rem => exact harithmetic
  | _ => simp [binaryType]

/-- Where nothing is known of one side, the type is `any`, or it does not depend on this side. -/
theorem binaryType_any_left (op : Syntax.BinaryOp) (u : Ty) :
    binaryType op .any u = .any ∨ ∀ t, binaryType op .any u = binaryType op t u := by
  cases op with
  | add =>
    by_cases hu : u = .string
    · exact .inr fun t => by simp [binaryType, hu]
    · exact .inl (by simp [binaryType, binaryType.arithmetic, hu])
  | sub | mul | div | rem => exact .inl rfl
  | _ => exact .inr fun _ => rfl

theorem binaryType_any_right (op : Syntax.BinaryOp) (t : Ty) :
    binaryType op t .any = .any ∨ ∀ u, binaryType op t .any = binaryType op t u := by
  cases op with
  | add =>
    by_cases ht : t = .string
    · exact .inr fun u => by simp [binaryType, ht]
    · exact .inl (by cases t <;> first | rfl | exact absurd rfl ht)
  | sub | mul | div | rem => exact .inl (by cases t <;> rfl)
  | _ => exact .inr fun _ => rfl

theorem vaguer_binaryType (op : Syntax.BinaryOp) {t t' u u' : Ty} (ht : t.Vaguer t')
    (hu : u.Vaguer u') : (binaryType op t u).Vaguer (binaryType op t' u') := by
  have hleft : (binaryType op t u).Vaguer (binaryType op t' u) := by
    rcases ht with rfl | ⟨rfl, -⟩
    · exact .refl _
    · exact (binaryType_any_left op u).elim
        (fun hany => .inr ⟨hany, binaryType_ne_document op t' u⟩) fun hsame => .inl (hsame t')
  refine hleft.trans ?_
  rcases hu with rfl | ⟨rfl, -⟩
  · exact .refl _
  · exact (binaryType_any_right op t').elim
      (fun hany => .inr ⟨hany, binaryType_ne_document op t' u'⟩) fun hsame => .inl (hsame u')

section

variable {S : Surroundings} {types types' : Scopes Ty}

theorem receiverType?_aligned {α β : Type} {C : α → β → Prop} {s : Scopes α} {t : Scopes β}
    (h : Aligned C s t) (e : Syntax.Expr) : receiverType? S s e = receiverType? S t e := by
  cases e with
  | ident span name =>
    rcases h.read? name with ⟨hs, ht⟩ | ⟨_, _, hs, ht, -⟩
    · rw [Scoped.receiverType?_free S hs, Scoped.receiverType?_free S ht]
    · rw [Scoped.receiverType?_local S hs, Scoped.receiverType?_local S ht]
  | _ => rfl

/-- Where less is known of the locals, no more is known of an expression. -/
theorem typeOf_vaguer (h : Aligned Ty.Vaguer types types') :
    ∀ e : Syntax.Expr, (typeOf S types e).Vaguer (typeOf S types' e)
  | .literal _ _ | .list _ _ | .index _ _ _ => .refl _
  | .ident _ name => by
    unfold typeOf
    rcases h.read? name with ⟨h₁, h₂⟩ | ⟨t, u, h₁, h₂, htu⟩
    · rw [h₁, h₂]
      exact .refl _
    · rw [h₁, h₂]
      exact htu
  | .unary _ op e => vaguer_unaryType op (typeOf_vaguer h e)
  | .binary _ op l r => vaguer_binaryType op (typeOf_vaguer h l) (typeOf_vaguer h r)
  | .call _ callee _ => by
    unfold typeOf
    rcases h.read? callee.text with ⟨h₁, h₂⟩ | ⟨t, u, h₁, h₂, htu⟩
    · rw [h₁, h₂]
      exact .refl _
    · rw [h₁, h₂]
      rcases htu with rfl | ⟨rfl, -⟩
      · exact .refl _
      · exact .inr ⟨rfl, by cases u <;> simp [calledType]⟩
  | .method _ receiver method _ => by
    have hreceiver := typeOf_vaguer h receiver
    unfold typeOf
    rw [receiverType?_aligned h]
    cases receiverType? S types' receiver with
    | some type => exact .refl _
    | none =>
      rcases hreceiver with hsame | ⟨hany, hdocument⟩
      · rw [hsame]
        exact .refl _
      · rw [hany]
        refine .inl ?_
        cases htype : typeOf S types' receiver <;> first | rfl | exact absurd htype hdocument

/-- Behind an assignment the name has its old type if the value has it too, and else `any`. -/
theorem assignType_eq (name : String) (ty : Ty) (types : Scopes Ty) :
    assignType name ty types = types.assign name
      (if (types.read? name).getD .any = ty then (types.read? name).getD .any else .any) := by
  unfold assignType
  split
  · rw [Scopes.assign_read?]
  · rfl

theorem vaguer_assigned {t t' u u' : Ty} (ht : t.Vaguer t') (hu : u.Vaguer u') :
    (if t = u then t else .any : Ty).Vaguer (if t' = u' then t' else .any) := by
  by_cases hsame : t = u <;> by_cases hsame' : t' = u'
  · rw [if_pos hsame, if_pos hsame']
    exact ht
  · -- The values differ where more is known, so the vaguer type is `any` already.
    rw [if_pos hsame, if_neg hsame']
    rcases ht with rfl | ⟨rfl, -⟩
    · rcases hu with rfl | ⟨rfl, -⟩
      · exact absurd hsame hsame'
      · exact .inl hsame
    · exact .refl _
  · rw [if_neg hsame, if_pos hsame']
    refine .inr ⟨rfl, fun hdocument => hsame ?_⟩
    rw [ht.document_iff.2 hdocument, hu.document_iff.2 (hsame' ▸ hdocument)]
  · rw [if_neg hsame, if_neg hsame']
    exact .refl _

theorem assignType_vaguer (h : Aligned Ty.Vaguer types types') (name : String) {ty ty' : Ty}
    (hty : ty.Vaguer ty') :
    Aligned Ty.Vaguer (assignType name ty types) (assignType name ty' types') := by
  have hold : ((types.read? name).getD .any).Vaguer ((types'.read? name).getD .any) := by
    rcases h.read? name with ⟨h₁, h₂⟩ | ⟨t, u, h₁, h₂, htu⟩
    · rw [h₁, h₂]
      exact .refl _
    · rw [h₁, h₂]
      exact htu
  rw [assignType_eq, assignType_eq]
  exact h.assign_both (vaguer_assigned hold hty) name

end

/-! ### Views that know less -/

/-- Names stand for the same slots in two views, and the first knows no more of their types. -/
structure View.Vaguer (v w : View) : Prop where
  alike : v.Alike w
  types : Aligned Ty.Vaguer v.types w.types

theorem View.Vaguer.refl (v : View) : v.Vaguer v :=
  ⟨⟨rfl, rfl⟩, List.forall₂_same.2 fun _ _ => List.forall₂_same.2 fun _ _ => ⟨rfl, .refl _⟩⟩

namespace View.Vaguer

variable {v w : View} (h : v.Vaguer w)

include h

theorem enter : v.enter.Vaguer w.enter := ⟨h.alike.enter, h.types.enter⟩

theorem leave : v.leave.Vaguer w.leave := ⟨h.alike.leave, h.types.leave⟩

theorem declare {ty ty' : Ty} (hty : ty.Vaguer ty') (name : String) :
    (v.declare name ty).Vaguer (w.declare name ty') :=
  ⟨h.alike.declare name ty ty', h.types.declare hty name⟩

end View.Vaguer

end Program

namespace Machine

open Program

/-! ### Expressions under both views -/

section

variable {S : Surroundings}

/-- What a call of a name is resolved to, by what the name stands for. -/
def callForm (S : Surroundings) (slots : Scopes Slot) (line : Nat) (name : String)
    (args : List Expr) : Expr :=
  match slots.read? name with
  | some slot => .callSlot line slot name args
  | none =>
    match S.declared.findMethod? S.owner name with
    | some id => .callMethod line id args
    | none =>
      match S.refs.function? name with
      | some g => .callFunction line g args
      | none => missing line

theorem resolves_call {v : View} {span : Span} {callee : Syntax.Ident} {args : List Syntax.Expr}
    {e : Expr} (h : Resolves S v (.call span callee args) e) :
    ∃ args', List.Forall₂ (Resolves S v) args args' ∧
      e = callForm S v.slots (S.lines.line span.start) callee.text args' := by
  unfold callForm
  cases h with
  | callLocal parts found => exact ⟨_, parts, by rw [found]⟩
  | callOwn parts free found => exact ⟨_, parts, by rw [free]; simp only [found]⟩
  | callFunction parts free noMethod found =>
    exact ⟨_, parts, by rw [free]; simp only [noMethod, found]⟩

theorem eval_callForm (slots : Scopes Slot) (line : Nat) (name : String) {f : Frame}
    {as bs : List Expr} (h : evalAll f as = evalAll f bs) :
    eval f (callForm S slots line name as) = eval f (callForm S slots line name bs) := by
  unfold callForm
  split
  · rw [eval, eval, h]
  · split
    · rw [eval, eval, h]
    · split
      · rw [eval, eval, h]
      · rfl

/-- A method call on a receiver that has a value, and may be known to be the document. -/
def objectCall (S : Surroundings) (f : Frame) (line : Nat) (name : String) (known : Bool)
    (receiver : Value) (args : List Value) : Exec Value :=
  match known, S.refs.documentMethod? name with
  | true, some m =>
    if receiver.isDocument then callDocument f line m.name m args
    else fail f line (.refused (.expected "Document" receiver.kind))
  | _, document => callDynamic f line name receiver args document (S.refs.function? name)

/-- A method call is one of a class that is named, or it does what `objectCall` does. -/
theorem resolves_method (hapart : S.refs.Apart) {v : View} {span : Span} {receiver : Syntax.Expr}
    {method : Syntax.Ident} {args : List Syntax.Expr} {e : Expr}
    (h : Resolves S v (.method span receiver method args) e) :
    (∃ type id args', Scoped.receiverType? S v.slots receiver = some type ∧
      S.declared.findMethod? type method.text = some id ∧ List.Forall₂ (Resolves S v) args args' ∧
      e = .callMethod (S.lines.line span.start) id args') ∨
    ∃ r' args', Scoped.receiverType? S v.slots receiver = none ∧ Resolves S v receiver r' ∧
      List.Forall₂ (Resolves S v) args args' ∧ ∀ f, eval f e =
        eval f r' >>= fun r => evalAll f args' >>= fun vs =>
          objectCall S f (S.lines.line span.start) method.text
            (Scoped.typeOf S v.types receiver = .document) r vs := by
  cases h with
  | qualified named parts found => exact .inl ⟨_, _, _, named, found, parts, rfl⟩
  | document noType object parts static found =>
    refine .inr ⟨_, _, noType, object, parts, fun f => ?_⟩
    simp only [eval, objectCall, static, decide_true, found]
  | dynamic noType object parts static found =>
    refine .inr ⟨_, _, noType, object, parts, fun f => ?_⟩
    obtain ⟨hdocument, hfunction⟩ := dynamic_found hapart found
    simp only [eval, objectCall, static, hdocument, hfunction, reduceCtorEq, decide_false]
  | receiver noType object parts noDocument _ found =>
    refine .inr ⟨_, _, noType, object, parts, fun f => ?_⟩
    have hname := ReferenceSet.function?_name found
    simp only [eval, evalAll, objectCall, noDocument, decide_false, found,
      hapart.documentMethod?_none found, callDynamic, hname, bind_assoc, pure_bind]

/-- Operators do the same on operands that do the same and stand on the same lines. -/
theorem eval_binary_congr {f : Frame} (line : Nat) (op : Syntax.BinaryOp) {l l' r r' : Expr}
    (hl : eval f l = eval f l') (hr : eval f r = eval f r') (hlineL : l.line = l'.line)
    (hlineR : r.line = r'.line) : eval f (.binary line op l r) = eval f (.binary line op l' r') := by
  cases op <;> simp only [eval, hl, hr, hlineL, hlineR]

mutual

/-- **Expressions under two views**: they have the same value, or fail alike. -/
theorem resolves_eval_eq (hapart : S.refs.Apart) (f : Frame) {v w : View} (hv : v.Vaguer w) :
    ∀ (e : Syntax.Expr) {e₁ e₂ : Expr}, Resolves S v e e₁ → Resolves S w e e₂ →
      eval f e₁ = eval f e₂
  | .literal _ _, _, _, .literal, .literal => rfl
  | .ident _ _, _, _, .ident found, .ident found' => by
    rw [hv.alike.slots, found'] at found
    rw [Option.some.inj found]
  | .list _ items, _, _, .list parts, .list parts' => by
    rw [eval, eval, resolves_evalAll_eq hapart f hv items parts parts']
  | .unary _ _ e, _, _, .unary part, .unary part' => by
    rw [eval, eval, resolves_eval_eq hapart f hv e part part']
  | .binary _ op l r, _, _, .binary left right, .binary left' right' =>
    eval_binary_congr _ op (resolves_eval_eq hapart f hv l left left')
      (resolves_eval_eq hapart f hv r right right') (left.line.trans left'.line.symm)
      (right.line.trans right'.line.symm)
  | .index _ t p, _, _, .index target place, .index target' place' => by
    rw [eval, eval, resolves_eval_eq hapart f hv t target target',
      resolves_eval_eq hapart f hv p place place']
  | .call _ _ args, _, _, h₁, h₂ => by
    obtain ⟨as, parts, rfl⟩ := resolves_call h₁
    obtain ⟨bs, parts', rfl⟩ := resolves_call h₂
    rw [hv.alike.slots]
    exact eval_callForm _ _ _ (resolves_evalAll_eq hapart f hv args parts parts')
  | .method _ receiver _ args, _, _, h₁, h₂ => by
    have hnamed : Scoped.receiverType? S v.slots receiver = Scoped.receiverType? S w.slots receiver := by
      rw [hv.alike.slots]
    have hknown := (typeOf_vaguer (S := S) hv.types receiver).document_iff
    rcases resolves_method hapart h₁ with ⟨type, id, as, named, found, parts, rfl⟩ |
        ⟨r, as, noType, object, parts, heval⟩
    · rcases resolves_method hapart h₂ with ⟨type', id', bs, named', found', parts', rfl⟩ |
          ⟨_, _, noType', -⟩
      · rw [hnamed, named'] at named
        obtain rfl := Option.some.inj named
        rw [found'] at found
        obtain rfl := Option.some.inj found
        rw [eval, eval, resolves_evalAll_eq hapart f hv args parts parts']
      · rw [hnamed, noType'] at named
        cases named
    · rcases resolves_method hapart h₂ with ⟨_, _, _, named', -⟩ |
          ⟨r', bs, noType', object', parts', heval'⟩
      · rw [hnamed, named'] at noType
        cases noType
      · simp only [heval, heval', resolves_eval_eq hapart f hv receiver object object',
          resolves_evalAll_eq hapart f hv args parts parts', hknown]

theorem resolves_evalAll_eq (hapart : S.refs.Apart) (f : Frame) {v w : View} (hv : v.Vaguer w) :
    ∀ (es : List Syntax.Expr) {es₁ es₂ : List Expr}, List.Forall₂ (Resolves S v) es es₁ →
      List.Forall₂ (Resolves S w) es es₂ → evalAll f es₁ = evalAll f es₂
  | [], _, _, .nil, .nil => rfl
  | e :: es, _, _, .cons head tail, .cons head' tail' => by
    rw [evalAll, evalAll, resolves_eval_eq hapart f hv e head head',
      resolves_evalAll_eq hapart f hv es tail tail']

end

theorem resolves_condition_eq (hapart : S.refs.Apart) (f : Frame) {v w : View} (hv : v.Vaguer w)
    {e : Syntax.Expr} {e₁ e₂ : Expr} (h₁ : Resolves S v e e₁) (h₂ : Resolves S w e e₂) :
    condition f e₁ = condition f e₂ := by
  unfold condition
  rw [resolves_eval_eq hapart f hv e h₁ h₂, h₁.line, h₂.line]

/-! ### Statements under both views -/

mutual

/-- **Statements under two views**: they do the same, and the views behind them are related again. -/
theorem resolves_exec_eq (hapart : S.refs.Apart) (f : Frame) : ∀ (s : Syntax.Stmt)
    {v w v' w' : View} {t₁ t₂ : Stmt}, v.Vaguer w → ResolvesStmt S v s t₁ v' →
      ResolvesStmt S w s t₂ w' → exec f t₁ = exec f t₂ ∧ v'.Vaguer w'
  | .declare _ name e, _, _, _, _, _, _, hv, .declare value, .declare value' => by
    refine ⟨?_, hv.declare (typeOf_vaguer hv.types e) name.text⟩
    rw [exec, exec, resolves_eval_eq hapart f hv e value value', hv.alike.size]
  | .assign _ name e, _, _, _, _, _, _, hv, .assign value found, .assign value' found' => by
    have htypes := assignType_vaguer hv.types name.text (typeOf_vaguer (S := S) hv.types e)
    refine ⟨?_, ⟨hv.alike.slots, hv.alike.size⟩, htypes⟩
    rw [hv.alike.slots, found'] at found
    rw [exec, exec, resolves_eval_eq hapart f hv e value value', Option.some.inj found]
  | .expr _ e, _, _, _, _, _, _, hv, .expr value, .expr value' => by
    refine ⟨?_, hv⟩
    rw [exec, exec, resolves_eval_eq hapart f hv e value value']
  | .branch _ branches otherwise, _, _, _, _, _, _, hv, .branch arms last, .branch arms' last' => by
    obtain ⟨harms, hmid⟩ := resolves_execArms_eq hapart f branches hv arms arms'
    obtain ⟨hlast, hend⟩ := resolves_execOtherwise_eq hapart f otherwise hmid last last'
    refine ⟨?_, hend⟩
    rw [exec, exec, hlast, harms]
  | .loop _ _ body, _, _, _, _, _, _, hv, .loop test block, .loop test' block' => by
    obtain ⟨hbody, hend⟩ := resolves_execAll_eq hapart f body hv.enter block block'
    refine ⟨?_, hend.leave⟩
    rw [exec, exec, resolves_condition_eq hapart f hv test test', hbody]
  | .forEach _ binding items body, _, _, _, _, _, _, hv, .forEach values block,
      .forEach values' block' => by
    obtain ⟨hbody, hend⟩ := resolves_execAll_eq hapart f body
      (hv.enter.declare (.refl .any) binding.text).enter block block'
    refine ⟨?_, hend.leave.leave⟩
    rw [exec, exec, resolves_eval_eq hapart f hv items values values', hbody, hv.alike.size]
  | .forRange _ binding start stop body, _, _, _, _, _, _, hv, .forRange first last block,
      .forRange first' last' block' => by
    obtain ⟨hbody, hend⟩ := resolves_execAll_eq hapart f body
      (hv.enter.declare (.refl .int) binding.text).enter block block'
    refine ⟨?_, hend.leave.leave⟩
    rw [exec, exec, resolves_eval_eq hapart f hv start first first',
      resolves_eval_eq hapart f hv stop last last', hbody, hv.alike.size, first.line, first'.line,
      last.line, last'.line]
  | .result _ none, _, _, _, _, _, _, hv, .leave, .leave => ⟨rfl, hv⟩
  | .result _ (some e), _, _, _, _, _, _, hv, .result value, .result value' => by
    refine ⟨?_, hv⟩
    rw [exec, exec, resolves_eval_eq hapart f hv e value value']

theorem resolves_execAll_eq (hapart : S.refs.Apart) (f : Frame) : ∀ (ss : List Syntax.Stmt)
    {v w v' w' : View} {ts us : List Stmt}, v.Vaguer w → ResolvesStmts S v ss ts v' →
      ResolvesStmts S w ss us w' → execAll f ts = execAll f us ∧ v'.Vaguer w'
  | [], _, _, _, _, _, _, hv, .nil, .nil => ⟨rfl, hv⟩
  | s :: ss, _, _, _, _, _, _, hv, .cons head tail, .cons head' tail' => by
    obtain ⟨hhead, hmid⟩ := resolves_exec_eq hapart f s hv head head'
    obtain ⟨htail, hend⟩ := resolves_execAll_eq hapart f ss hmid tail tail'
    refine ⟨?_, hend⟩
    rw [execAll, execAll, hhead, htail]

theorem resolves_execArms_eq (hapart : S.refs.Apart) (f : Frame) :
    ∀ (bs : List (Syntax.Expr × List Syntax.Stmt)) {v w v' w' : View}
    {cs ds : List (Expr × List Stmt)}, v.Vaguer w → ResolvesArms S v bs cs v' →
      ResolvesArms S w bs ds w' → execArms f cs = execArms f ds ∧ v'.Vaguer w'
  | [], _, _, _, _, _, _, hv, .nil, .nil => ⟨rfl, hv⟩
  | (_, body) :: bs, _, _, _, _, _, _, hv, .cons test block tail, .cons test' block' tail' => by
    obtain ⟨hbody, hmid⟩ := resolves_execAll_eq hapart f body hv.enter block block'
    obtain ⟨htail, hend⟩ := resolves_execArms_eq hapart f bs hmid.leave tail tail'
    refine ⟨?_, hend⟩
    funext otherwise
    rw [execArms, execArms, resolves_condition_eq hapart f hv test test', hbody, htail]

theorem resolves_execOtherwise_eq (hapart : S.refs.Apart) (f : Frame) :
    ∀ (o : Option (List Syntax.Stmt)) {v w v' w' : View} {p q : Option (List Stmt)}, v.Vaguer w →
      ResolvesOtherwise S v o p v' → ResolvesOtherwise S w o q w' →
        execOtherwise f p = execOtherwise f q ∧ v'.Vaguer w'
  | none, _, _, _, _, _, _, hv, .none, .none => ⟨rfl, hv⟩
  | some body, _, _, _, _, _, _, hv, .some block, .some block' => by
    obtain ⟨hbody, hend⟩ := resolves_execAll_eq hapart f body hv.enter block block'
    refine ⟨?_, hend.leave⟩
    rw [execOtherwise, execOtherwise, hbody]

end

end

end Machine

end ReportTemplate
