import ReportTemplate.Program.Resolution
import ReportTemplate.Proofs.Syntax.Spans

/-!
# ReportTemplate.Proofs.Program.Places — where something is found

Whatever is found wrong in a source is reported at the span of a node or of a name of its syntax tree.
`Preserves I` says of a computation with a state that it keeps the invariant `I` of the state, and each
computation that declares or resolves keeps the spans it has and reports such of the tree it is given.
-/

namespace ReportTemplate.Program

/-! ### Invariants of a state -/

/-- The computation keeps an invariant of its state. -/
def Preserves {σ α : Type} (I : σ → Prop) (x : StateM σ α) : Prop := ∀ s, I s → I (x s).2

namespace Preserves

variable {σ α β : Type} {I : σ → Prop} {x : StateM σ α}

theorem pure (a : α) : Preserves I (Pure.pure a : StateM σ α) := fun _ hs => hs

theorem bind {f : α → StateM σ β} (hx : Preserves I x) (hf : ∀ a, Preserves I (f a)) :
    Preserves I (x >>= f) :=
  fun s hs => hf (x s).1 (x s).2 (hx s hs)

/-- What is read from the state has the invariant. -/
theorem get_bind {f : σ → StateM σ β} (hf : ∀ s, I s → Preserves I (f s)) :
    Preserves I (MonadState.get >>= f) :=
  fun s hs => hf s hs s hs

theorem change {f : σ → σ} (hf : ∀ s, I s → I (f s)) : Preserves I (modify f : StateM σ PUnit) := hf

end Preserves

variable {P : Span → Prop}

/-- Every diagnostic stands at a span with a property. -/
def PlacedAt (P : Span → Prop) (ds : List Diagnostic) : Prop := ∀ d ∈ ds, P d.span

/-- Every diagnostic stands at a span with a property, and no policy has escalated it. -/
def FoundAt (P : Span → Prop) (ds : List Diagnostic) : Prop :=
  ∀ d ∈ ds, P d.span ∧ d.escalated = false

theorem FoundAt.add {ds : List Diagnostic} (h : FoundAt P ds) {d : Diagnostic} (hd : P d.span)
    (hplain : d.escalated = false) : FoundAt P (ds ++ [d]) :=
  List.forall_mem_append.mpr ⟨h, List.forall_mem_singleton.mpr ⟨hd, hplain⟩⟩

/-! ### Declarations -/

/-- The diagnostics and the methods to be resolved have spans with a property. -/
structure Declarations.Spans (P : Span → Prop) (d : Declarations) : Prop where
  found : FoundAt P d.found
  methods : ∀ m ∈ d.methods, m.declaration.Spans P

namespace Declare

/-- The computation declares what has spans with a property, and reports there. -/
abbrev Keeps {α : Type} (P : Span → Prop) (x : Declare α) : Prop :=
  Preserves (Declarations.Spans P) x

theorem keeps_report (code : Diagnostic.Code) (message : String) {span : Span} (h : P span) :
    Keeps P (report code message span) :=
  .change fun _ hd => ⟨hd.found.add h rfl, hd.methods⟩

/-- What is reported under a condition. -/
theorem keeps_reportIf {α : Type} (c : Prop) [Decidable c] {code : Diagnostic.Code} {message : String}
    {span : Span} (h : P span) {x : Declare α} (hx : Keeps P x) :
    Keeps P (if c then report code message span >>= fun _ => x else x) := by
  split
  · exact (keeps_report code message h).bind fun _ => hx
  · exact hx

variable (refs : ReferenceSet)

mutual

theorem keeps_type : ∀ t : Syntax.TypeExpr, t.Spans P → Keeps P (type refs t)
  | .named span name, h => by
    have hunknown (message : String) : Keeps P (do
        report .unknownType message span
        return Ty.any) :=
      (keeps_report _ message h).bind fun _ => .pure _
    unfold type
    split
    · split
      · exact .pure _
      · exact hunknown _
    · exact hunknown _
  | .callback span params, h => by
    have hparams : Keeps P (do
        let params ← types refs params
        return Ty.callback params) :=
      (keeps_types params h.2).bind fun _ => .pure _
    unfold type
    split
    · exact (keeps_report _ _ h.1).bind fun _ => hparams
    · exact hparams

theorem keeps_types : ∀ ts : List Syntax.TypeExpr, Syntax.TypeExpr.AllSpans P ts →
    Keeps P (types refs ts)
  | [], _ => .pure _
  | t :: ts, h => (keeps_type t h.1).bind fun _ => (keeps_types ts h.2).bind fun _ => .pure _

end

theorem keeps_params (ps : List Syntax.Param) (h : ∀ p ∈ ps, p.Spans P) :
    ∀ seen : List String, Keeps P (params refs seen ps) := by
  induction ps with
  | nil => exact fun _ => .pure _
  | cons p ps ih =>
    intro seen
    obtain ⟨hp, hps⟩ := List.forall_mem_cons.mp h
    unfold params
    refine keeps_reportIf _ hp.1 ?_
    exact (keeps_type refs p.type hp.2).bind fun _ => (ih hps _).bind fun _ => .pure _

theorem keeps_signature {m : Syntax.Method} (h : m.Spans P) : Keeps P (signature refs m) := by
  unfold signature
  refine (keeps_params refs m.params h.params []).bind fun ps => ?_
  have hreturns (x : Declare Ty) (hx : Keeps P x) : Keeps P (do
      let returns ← x
      return (⟨m.name.text, m.isStatic, ps, returns⟩ : Signature)) :=
    hx.bind fun _ => .pure _
  split
  next t ht => exact hreturns _ (keeps_type refs t (h.returns t ht))
  next => exact hreturns _ (.pure _)

theorem keeps_methods (owner : TypeId) (path : String) (ms : List Syntax.Method)
    (h : ∀ m ∈ ms, m.Spans P) : ∀ seen : List String, Keeps P (methods refs owner path seen ms) := by
  induction ms with
  | nil => exact fun _ => .pure _
  | cons m ms ih =>
    intro seen
    obtain ⟨hm, hms⟩ := List.forall_mem_cons.mp h
    unfold methods
    split
    · exact (keeps_report _ _ hm.name).bind fun _ => ih hms seen
    · refine (keeps_signature refs hm).bind fun s => .get_bind fun d _ => ?_
      have hadd : Keeps P (modify fun d => { d with methods := d.methods ++ [⟨s, owner, m⟩] }) :=
        .change fun _ hd =>
          ⟨hd.found, List.forall_mem_append.mpr ⟨hd.methods, List.forall_mem_singleton.mpr hm⟩⟩
      exact hadd.bind fun _ => (ih hms _).bind fun _ => .pure _

mutual

theorem keeps_classDecl : ∀ (parent : Option String) (c : Syntax.Class), c.Spans P →
    Keeps P (classDecl refs parent c)
  | parent, .mk span name members, h => by
    have hmethods : ∀ m ∈ members.filterMap Sum.getLeft?, m.Spans P := by
      intro m hm
      obtain ⟨x, hx, hleft⟩ := List.mem_filterMap.mp hm
      have hspans := Syntax.Class.allSpans_iff.mp h.2.2 x hx
      obtain rfl := Sum.getLeft?_eq_some_iff.mp hleft
      exact hspans
    have hadd (t : TypeInfo) : Keeps P (modify fun d => { d with types := d.types ++ [t] }) :=
      .change fun _ hd => ⟨hd.found, hd.methods⟩
    unfold classDecl
    exact .get_bind fun d _ => (keeps_methods refs _ _ _ hmethods []).bind fun ids =>
      (hadd _).bind fun _ => keeps_nested _ [] members h.2.2

theorem keeps_nested : ∀ (path : String) (seen : List String)
    (members : List (Syntax.Method ⊕ Syntax.Class)), Syntax.Class.AllSpans P members →
      Keeps P (nested refs path seen members)
  | _, _, [], _ => .pure ()
  | path, seen, .inl _ :: members, h => keeps_nested path seen members h.2
  | path, seen, .inr c :: members, h => by
    unfold nested
    refine keeps_reportIf _ h.1.name ?_
    exact (keeps_classDecl (some path) c h.1).bind fun _ =>
      keeps_nested path (c.name.text :: seen) members h.2

end

theorem keeps_classes (cs : List Syntax.Class) (h : ∀ c ∈ cs, c.Spans P) :
    ∀ seen : List String, Keeps P (classes refs seen cs) := by
  induction cs with
  | nil => exact fun _ => .pure ()
  | cons c cs ih =>
    intro seen
    obtain ⟨hc, hcs⟩ := List.forall_mem_cons.mp h
    unfold classes
    refine keeps_reportIf _ hc.name ?_
    exact (keeps_classDecl refs none c hc).bind fun _ => ih hcs _

end Declare

theorem spans_declarations (refs : ReferenceSet) {file : Syntax.File} (h : file.Spans P) :
    (declarations refs file).Spans P :=
  Declare.keeps_classes refs file.classes h [] {} ⟨nofun, nofun⟩

/-! ### Bodies -/

/-- The diagnostics and the locals have spans with a property. -/
structure Scope.Spans (P : Span → Prop) (s : Scope) : Prop where
  found : FoundAt P s.found
  locals : ∀ l ∈ s.locals, P l.span

namespace Resolve

/-- The computation declares locals at spans with a property, and reports there. -/
abbrev Keeps {α : Type} (P : Span → Prop) (x : Resolve α) : Prop := Preserves (Scope.Spans P) x

theorem keeps_report (code : Diagnostic.Code) (message : String) {span : Span} (h : P span) :
    Keeps P (report code message span) :=
  .change fun _ hs => ⟨hs.found.add h rfl, hs.locals⟩

/-- A name is looked up without a change. -/
theorem preserves_lookup {I : Scope → Prop} (name : String) : Preserves I (lookup name) := by
  refine .get_bind fun s _ => ?_
  split
  · exact .pure _
  · exact .pure _

theorem keeps_change (slot : Slot) {f : Local → Local} (hf : ∀ l, (f l).span = l.span) :
    Keeps P (change slot f) := by
  refine .change fun s hs => ⟨hs.found, fun l hl => ?_⟩
  obtain ⟨i, hi⟩ := List.mem_iff_getElem?.mp hl
  rw [List.getElem?_modify] at hi
  obtain ⟨l', hl', rfl⟩ := Option.map_eq_some_iff.mp hi
  have hold := hs.locals l' (List.mem_of_getElem? hl')
  by_cases h : slot = i
  · rw [if_pos h, hf]
    exact hold
  · rw [if_neg h]
    exact hold

theorem keeps_use (slot : Slot) : Keeps P (use slot) := keeps_change slot fun _ => rfl

theorem keeps_declare (name : String) (ty : Ty) {span : Span} (h : P span) (watched : Bool) :
    Keeps P (declare name ty span watched) :=
  .get_bind fun _ _ => (Preserves.change fun _ hs =>
    ⟨hs.found, List.forall_mem_append.mpr ⟨hs.locals, List.forall_mem_singleton.mpr h⟩⟩).bind fun _ =>
      .pure _

theorem keeps_reportUnused (slots : List Slot) : Keeps P (reportUnused slots) := by
  induction slots with
  | nil => exact .pure ()
  | cons slot slots ih =>
    refine .get_bind fun s hs => ?_
    cases hl : s.locals[slot]? with
    | none => exact ih
    | some l =>
      dsimp only
      split
      · exact (keeps_report _ _ (hs.locals l (List.mem_of_getElem? hl))).bind fun _ => ih
      · exact ih

theorem keeps_close (outer : List (String × Slot)) : Keeps P (close outer) :=
  .get_bind fun _ _ => (keeps_reportUnused _).bind fun _ => .change fun _ hs => ⟨hs.found, hs.locals⟩

theorem keeps_inScope {α : Type} {x : Resolve α} (hx : Keeps P x) : Keeps P (inScope x) :=
  .get_bind fun _ _ => hx.bind fun _ => (keeps_close _).bind fun _ => .pure _

/-! ### Calls -/

/-- What can be wrong with a call. -/
def callCodes : List Diagnostic.Code :=
  [.unknownFunction, .argumentCount, .unknownDocumentMethod, .instanceMethodCall, .notCallable]

/-- Reports about a call at a span keep an invariant. -/
def ReportsKeep (I : Scope → Prop) (span : Span) : Prop :=
  ∀ code ∈ callCodes, ∀ message, Preserves I (report code message span)

theorem reportsKeep {span : Span} (h : P span) : ReportsKeep (Scope.Spans P) span :=
  fun code _ message => keeps_report code message h

section Calls

variable {I : Scope → Prop} (S : Surroundings) (line : Nat) (args : List Expr)

/-- What is reported in place of an expression. -/
theorem preserves_refused {span : Span} (h : ReportsKeep I span) {code : Diagnostic.Code}
    (hcode : code ∈ callCodes) (message : String) :
    Preserves I (do
      report code message span
      return unresolved line) :=
  (h code hcode message).bind fun _ => .pure _

/-- A call whose number of arguments is checked. -/
theorem preserves_counted {span : Span} (h : ReportsKeep I span) (name : String) (wanted found : Nat)
    (r : Expr × Ty) :
    Preserves I (do
      if ← checkCount name wanted found span then return r
      return unresolved line) := by
  have hcheck : Preserves I (checkCount name wanted found span) := by
    unfold checkCount
    split
    · exact .pure _
    · exact (h _ (by decide) _).bind fun _ => .pure _
  refine hcheck.bind fun ok => ?_
  split
  · exact .pure _
  · exact .pure _

theorem preserves_staticCall {span : Span} (h : ReportsKeep I span) (id : MethodId) (shown : String) :
    Preserves I (staticCall S line id shown args span) := by
  unfold staticCall
  split
  · exact .pure _
  · split
    · exact preserves_refused line h (by decide) _
    · exact preserves_counted line h _ _ _ _

theorem preserves_plainCall {callee : Syntax.Ident} (h : ReportsKeep I callee.span) :
    Preserves I (plainCall S line callee args) := by
  unfold plainCall
  split
  · exact preserves_staticCall S line args h _ _
  · split
    · exact preserves_counted line h _ _ _ _
    · exact preserves_refused line h (by decide) _

/-- To call a local uses it, and changes nothing else but for reports about the call. -/
theorem localCall_eq {callee : Syntax.Ident} (h : ReportsKeep I callee.span) (slot : Slot) (ty : Ty) :
    ∃ x : Resolve (Expr × Ty), localCall line slot ty callee args = (use slot >>= fun _ => x) ∧
      Preserves I x := by
  refine ⟨_, rfl, ?_⟩
  split
  · exact preserves_counted line h _ _ _ _
  · exact .pure _
  · exact preserves_refused line h (by decide) _

variable {method : Syntax.Ident}

theorem preserves_qualifiedCall (h : ReportsKeep I method.span) (type : TypeId) (typeName : String) :
    Preserves I (qualifiedCall S line type typeName method args) := by
  unfold qualifiedCall
  split
  · exact preserves_staticCall S line args h _ _
  · exact preserves_refused line h (by decide) _

theorem preserves_documentCall (h : ReportsKeep I method.span) (receiver : Expr) :
    Preserves I (documentCall S line receiver method args) := by
  unfold documentCall
  split
  · exact preserves_counted line h _ _ _ _
  · exact preserves_refused line h (by decide) _

theorem preserves_dynamicCall (h : ReportsKeep I method.span) (receiver : Expr) :
    Preserves I (dynamicCall S line receiver method args) := by
  unfold dynamicCall
  dsimp only
  split
  · exact preserves_refused line h (by decide) _
  · split
    · exact preserves_refused line h (by decide) _
    · exact .pure _

theorem preserves_receiverCall (h : ReportsKeep I method.span) (receiver : Expr) (ty : Ty) :
    Preserves I (receiverCall S line receiver ty method args) := by
  unfold receiverCall
  split
  · exact preserves_counted line h _ _ _ _
  · exact preserves_refused line h (by decide) _

theorem preserves_methodCall (h : ReportsKeep I method.span) (receiver : Expr) (ty : Ty) :
    Preserves I (methodCall S line receiver ty method args) := by
  unfold methodCall
  split
  · exact preserves_documentCall S line args h receiver
  · exact preserves_dynamicCall S line args h receiver
  · exact preserves_receiverCall S line args h receiver ty

end Calls

theorem preserves_receiverType? {I : Scope → Prop} (S : Surroundings) (e : Syntax.Expr) :
    Preserves I (receiverType? S e) := by
  cases e with
  | ident span name =>
    refine (preserves_lookup name).bind fun found => ?_
    split
    · exact .pure _
    · exact .pure _
  | _ => exact .pure _

/-! ### Expressions and statements -/

/-- Uses of locals, and reports about names and calls at spans with a property, keep an invariant. -/
structure UsesKeep (P : Span → Prop) (I : Scope → Prop) : Prop where
  use : ∀ slot, Preserves I (use slot)
  name : ∀ span, P span → ∀ message, Preserves I (report .unknownVariable message span)
  call : ∀ span, P span → ReportsKeep I span

theorem usesKeep : UsesKeep P (Scope.Spans P) where
  use := keeps_use
  name _ h message := keeps_report _ message h
  call _ h := reportsKeep h

section Expressions

variable {I : Scope → Prop} (S : Surroundings)

mutual

/-- To resolve an expression uses locals, and changes nothing else but for reports. -/
theorem preserves_expr (hI : UsesKeep P I) : ∀ e : Syntax.Expr, e.Spans P → Preserves I (expr S e)
  | .literal _ _, _ => .pure _
  | .ident span name, h => by
    refine (preserves_lookup name).bind fun found => ?_
    split
    · exact (hI.use _).bind fun _ => .pure _
    · exact (hI.name span h _).bind fun _ => .pure _
  | .list _ items, h => (preserves_exprs hI items h.2).bind fun _ => .pure _
  | .unary _ _ operand, h => (preserves_expr hI operand h.2).bind fun _ => .pure _
  | .binary _ _ left right, h => (preserves_expr hI left h.2.1).bind fun _ =>
    (preserves_expr hI right h.2.2).bind fun _ => .pure _
  | .index _ target place, h => (preserves_expr hI target h.2.1).bind fun _ =>
    (preserves_expr hI place h.2.2).bind fun _ => .pure _
  | .call span callee args, h => by
    refine (preserves_exprs hI args h.2.2).bind fun args =>
      (preserves_lookup callee.text).bind fun found => ?_
    split
    · obtain ⟨x, hcall, hx⟩ := localCall_eq _ _ (hI.call _ h.2.1) _ _
      rw [hcall]
      exact (hI.use _).bind fun _ => hx
    · exact preserves_plainCall S _ _ (hI.call _ h.2.1)
  | .method span receiver method args, h => by
    refine (preserves_receiverType? S receiver).bind fun found => ?_
    split
    · exact (preserves_exprs hI args h.2.2.2).bind fun _ =>
        preserves_qualifiedCall S _ _ (hI.call _ h.2.2.1) _ _
    · exact (preserves_expr hI receiver h.2.1).bind fun _ =>
        (preserves_exprs hI args h.2.2.2).bind fun _ =>
          preserves_methodCall S _ _ (hI.call _ h.2.2.1) _ _

theorem preserves_exprs (hI : UsesKeep P I) : ∀ es : List Syntax.Expr, Syntax.Expr.AllSpans P es →
    Preserves I (exprs S es)
  | [], _ => .pure _
  | e :: es, h => (preserves_expr hI e h.1).bind fun _ =>
    (preserves_exprs hI es h.2).bind fun _ => .pure _

end

end Expressions

variable (S : Surroundings)

theorem keeps_expr (e : Syntax.Expr) (h : e.Spans P) : Keeps P (expr S e) :=
  preserves_expr S usesKeep e h

theorem keeps_reach (reached : Reached) {span : Span} (h : P span) : Keeps P (reach reached span) := by
  unfold reach
  split
  · exact (keeps_report _ _ h).bind fun _ => .pure _
  · exact .pure _

theorem keeps_assign (line : Nat) {name : Syntax.Ident} (value : Expr) (ty : Ty) (h : P name.span) :
    Keeps P (assign line name value ty) := by
  refine (preserves_lookup name.text).bind fun found => ?_
  split
  next slot old =>
    have hany : Keeps P (change slot fun l => { l with ty := .any }) := keeps_change slot fun _ => rfl
    split
    · exact hany.bind fun _ => .pure _
    · exact .pure _
  next => exact (keeps_report _ _ h).bind fun _ => .pure _

/-- A block behind a binding of its own. -/
theorem keeps_binding {binding : Syntax.Ident} (h : P binding.span) (ty : Ty)
    {x : Resolve (List Stmt)} (hx : Keeps P x) :
    Keeps P (inScope do
      let slot ← declare binding.text ty binding.span false
      let body ← inScope x
      return (slot, body)) :=
  keeps_inScope ((keeps_declare _ _ h _).bind fun _ => (keeps_inScope hx).bind fun _ => .pure _)

mutual

theorem keeps_stmt : ∀ s : Syntax.Stmt, s.Spans P → Keeps P (stmt S s)
  | .declare _ _ value, h => (keeps_expr S value h.2.2).bind fun _ =>
    (keeps_declare _ _ h.2.1 _).bind fun _ => .pure _
  | .assign _ _ value, h => (keeps_expr S value h.2.2).bind fun _ => keeps_assign _ _ _ h.2.1
  | .expr _ value, h => (keeps_expr S value h.2).bind fun _ => .pure _
  | .branch _ branches otherwise, h => (keeps_arms branches h.2.1).bind fun _ =>
    (keeps_otherwiseArm otherwise h.2.2).bind fun _ => .pure _
  | .loop _ condition body, h => (keeps_expr S condition h.2.1).bind fun _ =>
    (keeps_inScope (keeps_stmts .open body h.2.2)).bind fun _ => .pure _
  | .forEach _ _ items body, h => (keeps_expr S items h.2.2.1).bind fun _ =>
    (keeps_binding h.2.1 _ (keeps_stmts .open body h.2.2.2)).bind fun _ => .pure _
  | .forRange _ _ start stop body, h => (keeps_expr S start h.2.2.1).bind fun _ =>
    (keeps_expr S stop h.2.2.2.1).bind fun _ =>
      (keeps_binding h.2.1 _ (keeps_stmts .open body h.2.2.2.2)).bind fun _ => .pure _
  | .result _ none, _ => .pure _
  | .result _ (some value), h => (keeps_expr S value h.2).bind fun _ => .pure _

theorem keeps_stmts : ∀ (reached : Reached) (ss : List Syntax.Stmt), Syntax.Stmt.AllSpans P ss →
    Keeps P (stmts S reached ss)
  | _, [], _ => .pure _
  | reached, s :: ss, h => (keeps_reach reached h.1.whole).bind fun reached =>
    (keeps_stmt s h.1).bind fun _ => (keeps_stmts (reached.after s) ss h.2).bind fun _ => .pure _

theorem keeps_arms : ∀ bs : List (Syntax.Expr × List Syntax.Stmt), Syntax.Stmt.ArmsSpans P bs →
    Keeps P (arms S bs)
  | [], _ => .pure _
  | (condition, body) :: rest, h => (keeps_expr S condition h.1).bind fun _ =>
    (keeps_inScope (keeps_stmts .open body h.2.1)).bind fun _ =>
      (keeps_arms rest h.2.2).bind fun _ => .pure _

theorem keeps_otherwiseArm : ∀ o : Option (List Syntax.Stmt), Syntax.Stmt.OtherwiseSpans P o →
    Keeps P (otherwiseArm S o)
  | none, _ => .pure _
  | some body, h => (keeps_inScope (keeps_stmts .open body h)).bind fun _ => .pure _

end

theorem keeps_params (ps : List ((String × Ty) × Syntax.Param)) (h : ∀ p ∈ ps, P p.2.name.span) :
    Keeps P (params ps) := by
  induction ps with
  | nil => exact .pure ()
  | cons p ps ih =>
    obtain ⟨hp, hps⟩ := List.forall_mem_cons.mp h
    exact (keeps_declare _ _ hp _).bind fun _ => ih hps

theorem keeps_body {m : Pending} (h : m.declaration.Spans P) : Keeps P (body S m) := by
  refine (keeps_params _ fun p hp => ?_).bind fun _ => keeps_inScope (keeps_stmts S .open _ h.body)
  exact (h.params p.2 (List.of_mem_zip hp).2).1

end Resolve

/-- Whatever is found in the body of a method is reported at a span in it. -/
theorem foundAt_resolveMethod (refs : ReferenceSet) (lines : LineIndex) (declared : Declarations)
    {m : Pending} (h : m.declaration.Spans P) : FoundAt P (resolveMethod refs lines declared m).2 :=
  (Resolve.keeps_body _ h {} ⟨nofun, nofun⟩).found

/-- Whatever is found in a source is reported at a span of its tree. -/
theorem foundAt_resolve (refs : ReferenceSet) (lines : LineIndex) {file : Syntax.File}
    (h : file.Spans P) : FoundAt P (resolve refs lines file).2 := by
  have hdeclared := spans_declarations refs h
  refine List.forall_mem_append.mpr ⟨hdeclared.found, fun d hd => ?_⟩
  obtain ⟨r, hr, hd⟩ := List.mem_flatMap.mp hd
  obtain ⟨m, hm, rfl⟩ := List.mem_map.mp hr
  exact foundAt_resolveMethod refs lines _ (hdeclared.methods m hm) d hd

theorem placedAt_resolve (refs : ReferenceSet) (lines : LineIndex) {file : Syntax.File}
    (h : file.Spans P) : PlacedAt P (resolve refs lines file).2 :=
  fun d hd => (foundAt_resolve refs lines h d hd).1

end ReportTemplate.Program
