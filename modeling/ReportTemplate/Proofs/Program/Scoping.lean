import ReportTemplate.Proofs.Program.Declared
import ReportTemplate.Proofs.Program.Uses

/-!
# ReportTemplate.Proofs.Program.Scoping — the names of a method

The judgement of `Uses` for every expression and statement: resolution marks the locals that names
stand for and reports the names that stand for none, whatever else is wrong with the code.
-/

namespace ReportTemplate.Program.Resolve

open Syntax (Ident Occurrence Binding)
open Syntax.Occurrence (outside isUsed)

variable (S : Surroundings)

/-- A class of the name is declared. -/
def namesClass (name : String) : Bool := (S.declared.findType? name).isSome

variable {S} {os os' : List Occurrence} {idle idle' : List Ident} {σ : Scope}

/-! ### Names -/

/-- What is done with a name that is looked up. -/
theorem opens_lookup {α : Type} {name : String} {f : Option (Slot × Ty) → Resolve α}
    (hsome : ∀ σ slot ty, σ.visible.lookup name = some slot →
      Opened (namesClass S) [] os idle σ (f (some (slot, ty)) σ).2)
    (hnone : ∀ σ, σ.visible.lookup name = none → Opened (namesClass S) [] os idle σ (f none σ).2) :
    Opens (namesClass S) [] os idle (lookup name >>= f) := by
  intro σ _
  rw [bind_apply, lookup_eq]
  cases hlookup : σ.visible.lookup name with
  | none => exact hnone σ hlookup
  | some slot => exact hsome σ slot _ hlookup

/-- A name that is read, as a variable or as the receiver of a call. -/
theorem opened_ident {o : Occurrence} (huse : o.isUse = true)
    (hmissing : σ.visible.lookup o.name = none →
      missing? (namesClass S) o = some (unknownVariable o)) :
    Opened (namesClass S) [] [o] [] σ (expr S (.ident o.span o.name) σ).2 := by
  change Opened _ _ _ _ _ ((lookup o.name >>= _) σ).2
  rw [bind_apply, lookup_eq]
  cases hlookup : σ.visible.lookup o.name with
  | none => exact opened_missing hlookup (hmissing hlookup)
  | some slot => exact opened_use huse hlookup

/-- A name that is called. -/
theorem opens_callee (line : Nat) (callee : Ident) (args : List Expr) :
    Opens (namesClass S) [] [⟨.callee, callee.text, callee.span⟩] [] (do
      match ← lookup callee.text with
      | some (slot, ty) => localCall line slot ty callee args
      | none => plainCall S line callee args) := by
  refine opens_lookup (fun σ slot ty hlookup => ?_) (fun σ hlookup => ?_)
  · obtain ⟨x, hcall, hx⟩ := localCall_eq line args (reportsKeep_opened callee.span) slot ty
    change Opened _ _ _ _ σ (localCall line slot ty callee args σ).2
    rw [hcall]
    exact hx _ (opened_use rfl hlookup)
  · exact preserves_plainCall S line args (reportsKeep_opened callee.span) _
      (opened_silent (.inr hlookup) (by simp [report?, hlookup, missing?]))

/-- The receiver of a call is a class when its name is that of a class and of no local. -/
theorem receiverType?_eq (span : Span) (name : String) (σ : Scope) :
    receiverType? S (.ident span name) σ = (match σ.visible.lookup name with
      | some _ => none
      | none => (S.declared.findType? name).map fun type => (type, name), σ) := by
  change (lookup name >>= _) σ = _
  rw [bind_apply, lookup_eq]
  cases σ.visible.lookup name <;> rfl

/-! ### Expressions -/

section Methods

variable {receiver : Syntax.Expr} {args : List Syntax.Expr}

/-- A call on a value. -/
theorem opened_valueCall (line : Nat) (method : Ident) (hσ : InBounds σ)
    (hreceiver : Opened (namesClass S) [] os [] σ (expr S receiver σ).2)
    (hargs : Opens (namesClass S) [] os' [] (exprs S args)) :
    Opened (namesClass S) [] (os ++ os') [] σ ((do
      let (receiver, ty) ← expr S receiver
      let args ← exprs S args
      methodCall S line receiver ty method args) σ).2 := by
  have hcall (r : Expr × Ty) : Opens (namesClass S) [] os' []
      (exprs S args >>= fun args => methodCall S line r.1 r.2 method args) :=
    hargs.andThen fun args => .of_preserves fun _ =>
      preserves_methodCall S line args (reportsKeep_opened method.span) r.1 r.2
  exact hreceiver.trans (hcall _ _ (hreceiver.inBounds hσ))

/-- A call on a class. -/
theorem opens_qualifiedCall (line : Nat) (type : TypeId) (typeName : String) (method : Ident)
    (hargs : Opens (namesClass S) [] os [] (exprs S args)) :
    Opens (namesClass S) [] os [] (do
      let args ← exprs S args
      qualifiedCall S line type typeName method args) :=
  hargs.andThen fun args => .of_preserves fun _ =>
    preserves_qualifiedCall S line args (reportsKeep_opened method.span) type typeName

/-- A call on a name, which stands for a local, a class, or nothing. -/
theorem opens_namedCall (span whole : Span) (name : String) (method : Ident)
    (hargs : Opens (namesClass S) [] (Syntax.Expr.allNames args) [] (exprs S args)) :
    Opens (namesClass S) [] (⟨.receiver, name, span⟩ :: Syntax.Expr.allNames args) []
      (expr S (.method whole (.ident span name) method args)) := by
  intro σ hσ
  let o : Occurrence := ⟨.receiver, name, span⟩
  change Opened _ _ _ _ _ ((receiverType? S (.ident span name) >>= _) σ).2
  rw [bind_apply, receiverType?_eq]
  cases hlookup : σ.visible.lookup name with
  | some slot =>
    have hlocal : σ.visible.lookup o.name ≠ none := by simp [o, hlookup]
    exact opened_valueCall _ method hσ (opened_ident rfl fun hnone => absurd hnone hlocal) hargs
  | none =>
    cases hclass : S.declared.findType? name with
    | some type =>
      have hsilent : Opened (namesClass S) [] [o] [] σ σ :=
        opened_silent (.inr hlookup) (by simp [report?, hlookup, missing?, o, namesClass, hclass])
      exact hsilent.trans (opens_qualifiedCall _ type name method hargs σ hσ)
    | none =>
      have hmissing : missing? (namesClass S) o = some (unknownVariable o) := by
        simp [missing?, o, namesClass, hclass]
      exact opened_valueCall _ method hσ (opened_ident rfl fun _ => hmissing) hargs

theorem opens_method (span : Span) (method : Ident)
    (hreceiver : Opens (namesClass S) [] receiver.names [] (expr S receiver))
    (hargs : Opens (namesClass S) [] (Syntax.Expr.allNames args) [] (exprs S args)) :
    Opens (namesClass S) [] (Syntax.Expr.method span receiver method args).names []
      (expr S (.method span receiver method args)) := by
  cases receiver with
  | ident span' name => exact opens_namedCall span' span name method hargs
  | _ => exact fun σ hσ => opened_valueCall _ method hσ (hreceiver σ hσ) hargs

end Methods

mutual

theorem opens_expr : ∀ e : Syntax.Expr, Opens (namesClass S) [] e.names [] (expr S e)
  | .literal _ _ => .pure _
  | .ident span name => fun _ _ => opened_ident (o := ⟨.variable, name, span⟩) rfl fun _ => rfl
  | .list _ items => (opens_exprs items).map fun _ _ => rfl
  | .unary _ _ operand => (opens_expr operand).map fun _ _ => rfl
  | .binary _ _ left right => (opens_expr left).bind fun _ => (opens_expr right).map fun _ _ => rfl
  | .index _ target place => (opens_expr target).bind fun _ => (opens_expr place).map fun _ _ => rfl
  | .call _ callee args => (opens_exprs args).bind fun args => opens_callee _ callee args
  | .method span receiver method args =>
    opens_method span method (opens_expr receiver) (opens_exprs args)

theorem opens_exprs : ∀ es : List Syntax.Expr,
    Opens (namesClass S) [] (Syntax.Expr.allNames es) [] (exprs S es)
  | [] => .pure _
  | e :: es => (opens_expr e).bind fun _ => (opens_exprs es).map fun _ _ => rfl

end

/-! ### Statements -/

theorem opens_reach (reached : Reached) (span : Span) :
    Opens (namesClass S) [] [] [] (reach reached span) := by
  unfold reach
  split
  · refine .andThen (.of_preserves fun _ => preserves_report (by decide) _ span) fun _ => .pure _
  · exact .pure _

theorem opens_assign (line : Nat) (name : Ident) (value : Expr) (ty : Ty) :
    Opens (namesClass S) [] [⟨.target, name.text, name.span⟩] [] (assign line name value ty) := by
  refine opens_lookup (fun σ slot old hlookup => ?_) fun σ hlookup => opened_missing hlookup rfl
  have hsilent : Opened (namesClass S) [] [⟨.target, name.text, name.span⟩] [] σ σ :=
    opened_silent (.inl rfl) (by simp [report?, hlookup])
  dsimp only
  split
  · exact hsilent.trans (opened_forget slot)
  · exact hsilent

/-- A block behind a binding of its own. -/
theorem opens_binding {bs : List Binding} {x : Resolve (List Stmt)} (binding : Ident) (ty : Ty)
    (hx : Opens (namesClass S) bs os idle x) :
    Opens (namesClass S) [] (outside binding.text os) (idle ++ Binding.idle bs) (inScope do
      let slot ← declare binding.text ty binding.span false
      let body ← inScope x
      return (slot, body)) := by
  have hunwatched : Binding.idle [⟨binding, false, isUsed binding.text os⟩] = [] := rfl
  have h := Opens.inScope (.declare binding ty false fun slot =>
    hx.inScope.map (f := fun body => pure (slot, body)) fun _ _ => rfl)
  rwa [hunwatched, List.append_nil] at h

mutual

/-- A statement, and what comes behind it in its block: a `let` captures names there, so the two are taken
together. -/
theorem opens_then : ∀ (s : Syntax.Stmt) {bs : List Binding} {os : List Occurrence} {idle : List Ident}
    {f : Stmt → Resolve (List Stmt)}, (∀ t, Opens (namesClass S) bs os idle (f t)) →
      Opens (namesClass S) (s.bindings os ++ bs) (s.free ++ s.outside os) (s.idle ++ idle)
        (stmt S s >>= f)
  | .declare span name value, bs, os, idle, f, hf => by
    -- Whether the local is used is only known behind what comes next.
    have hassoc : stmt S (.declare span name value) >>= f = (do
        let r ← expr S value
        let slot ← declare name.text r.2 name.span (!name.text.startsWith "_")
        f (.store (S.lines.line span.start) slot r.1)) := rfl
    rw [hassoc]
    exact (opens_expr value).bind fun r => .declare name r.2 _ fun _ => hf _
  | .assign _ name value, _, _, _, _, hf =>
    ((opens_expr value).bind fun r => opens_assign _ name r.1 r.2).bind hf
  | .expr _ value, _, _, _, _, hf => ((opens_expr value).map fun _ _ => rfl).bind hf
  | .branch _ branches otherwise, _, _, _, _, hf => 
    ((opens_arms branches).bind fun _ => (opens_otherwiseArm otherwise).map fun _ _ => rfl).bind hf
  | .loop _ condition body, _, _, _, _, hf =>
    ((opens_expr condition).bind fun _ => (opens_stmts .open body).inScope.map fun _ _ => rfl).bind hf
  | .forEach _ binding items body, _, _, _, _, hf =>
    ((opens_expr items).bind fun _ =>
      (opens_binding binding _ (opens_stmts .open body)).map fun _ _ => rfl).bind hf
  | .forRange _ binding start stop body, _, _, _, _, hf =>
    ((opens_expr start).bind fun _ => (opens_expr stop).bind fun _ =>
      (opens_binding binding _ (opens_stmts .open body)).map fun _ _ => rfl).bind hf
  | .result _ none, _, _, _, _, hf => (Opens.pure _).bind hf
  | .result _ (some value), _, _, _, _, hf => ((opens_expr value).map fun _ _ => rfl).bind hf

theorem opens_stmts : ∀ (reached : Reached) (ss : List Syntax.Stmt),
    Opens (namesClass S) (Syntax.Stmt.allBindings ss) (Syntax.Stmt.allFree ss)
      (Syntax.Stmt.innerIdle ss) (stmts S reached ss)
  | _, [] => .pure _
  | reached, s :: ss => (opens_reach reached s.span).bind fun reached =>
    opens_then s fun _ => (opens_stmts (reached.after s) ss).map fun _ _ => rfl

theorem opens_arms : ∀ bs : List (Syntax.Expr × List Syntax.Stmt),
    Opens (namesClass S) [] (Syntax.Stmt.armsFree bs) (Syntax.Stmt.armsIdle bs) (arms S bs)
  | [] => .pure _
  | (condition, body) :: rest => (opens_expr condition).bind fun _ =>
    (opens_stmts .open body).inScope.bind fun _ => (opens_arms rest).map fun _ _ => rfl

theorem opens_otherwiseArm : ∀ o : Option (List Syntax.Stmt),
    Opens (namesClass S) [] (Syntax.Stmt.otherwiseFree o) (Syntax.Stmt.otherwiseIdle o)
      (otherwiseArm S o)
  | none => .pure _
  | some body => (opens_stmts .open body).inScope.map fun _ _ => rfl

end

/-! ### Methods -/

/-- Parameters, and what comes behind them. -/
theorem opens_params {α : Type} {bs : List Binding} {f : Unit → Resolve α}
    (hf : Opens (namesClass S) bs os idle (f ())) (ps : List ((String × Ty) × Syntax.Param))
    (hnames : ∀ p ∈ ps, p.1.1 = p.2.name.text) :
    ∃ bs', Opens (namesClass S) bs' (ps.foldr (fun p os => outside p.2.name.text os) os) idle
      (params ps >>= f) := by
  induction ps with
  | nil => exact ⟨bs, hf⟩
  | cons p ps ih =>
    obtain ⟨hp, hps⟩ := List.forall_mem_cons.mp hnames
    obtain ⟨bs', h⟩ := ih hps
    have hassoc : params (p :: ps) >>= f = (do
        let _ ← declare p.2.name.text p.1.2 p.2.name.span false
        params ps >>= f) := by
      rw [← hp]
      rfl
    rw [hassoc]
    exact ⟨_, .declare p.2.name p.1.2 false fun _ => h⟩

/-- Resolution of a method in a scope of its own. -/
theorem follows_body {m : Pending} (hm : m.Faithful) :
    Follows (namesClass S) m.declaration.free (Syntax.Stmt.allIdle m.declaration.body) {}
      (body S m {}).2 := by
  have hfst : (m.signature.params.zip m.declaration.params).map Prod.fst = m.signature.params :=
    List.map_fst_zip (Nat.le_of_eq hm.length_params)
  have hsnd : (m.signature.params.zip m.declaration.params).map Prod.snd = m.declaration.params :=
    List.map_snd_zip (Nat.le_of_eq hm.length_params.symm)
  have hnames : ∀ p ∈ m.signature.params.zip m.declaration.params, p.1.1 = p.2.name.text := by
    refine List.map_inj_left.mp ?_
    calc (m.signature.params.zip m.declaration.params).map (fun p => p.1.1)
      _ = m.signature.params.map Prod.fst := by
        conv_rhs => rw [← hfst, List.map_map]
        rfl
      _ = m.declaration.params.map fun p => p.name.text := hm.params
      _ = (m.signature.params.zip m.declaration.params).map fun p => p.2.name.text := by
        conv_lhs => rw [← hsnd, List.map_map]
        rfl
  have hfree : (m.signature.params.zip m.declaration.params).foldr
      (fun p os => outside p.2.name.text os) (Syntax.Stmt.allFree m.declaration.body) =
        m.declaration.free := by
    unfold Syntax.Method.free
    conv_rhs => rw [← hsnd, List.foldr_map]
  obtain ⟨bs, h⟩ := opens_params (f := fun _ => inScope (stmts S .open m.declaration.body))
    (opens_stmts .open m.declaration.body).inScope _ hnames
  rw [hfree] at h
  exact (h {} nofun).follows

end ReportTemplate.Program.Resolve
