import ReportTemplate.Library.Standard
import ReportTemplate.Proofs.Program.Annotations
import ReportTemplate.Proofs.Program.InRange

/-!
# ReportTemplate.Proofs.Program.Untyped — programs of sources that differ in annotations

The untyped form of a resolved expression follows from the expression and the slots of the visible names:
`bare` gives it without a look at static types.  So two sources that differ in their annotations only, and
in which no error is reported, have the same untyped program.
-/

namespace ReportTemplate

/-- No name is both a function and a document method. -/
def ReferenceSet.Apart (refs : ReferenceSet) : Prop :=
  ∀ name, refs.function? name = none ∨ refs.documentMethod? name = none

theorem ReferenceSet.documentMethod?_name {refs : ReferenceSet} {name : String} {m : DocumentMethod}
    (hm : refs.documentMethod? name = some m) : m.name = name := by
  have hname := List.find?_some hm
  exact of_decide_eq_true hname

theorem ReferenceSet.Apart.function?_none {refs : ReferenceSet} (h : refs.Apart) {name : String}
    {m : DocumentMethod} (hm : refs.documentMethod? name = some m) : refs.function? name = none :=
  (h name).resolve_right (by simp [hm])

theorem ReferenceSet.Apart.documentMethod?_none {refs : ReferenceSet} (h : refs.Apart)
    {name : String} {g : Function} (hg : refs.function? name = some g) :
    refs.documentMethod? name = none :=
  (h name).resolve_left (by simp [hg])

namespace Program

open Scoped (receiverType?)

/-! ### What the bodies of two sources refer to -/

/-- The bodies of methods can refer to the same things, apart from types. -/
structure Surroundings.Alike (S T : Surroundings) : Prop where
  refs : S.refs = T.refs
  lines : S.lines = T.lines
  owner : S.owner = T.owner
  declared : S.declared.untyped = T.declared.untyped

theorem Surroundings.Alike.refl (S : Surroundings) : S.Alike S := ⟨rfl, rfl, rfl, rfl⟩

theorem Declarations.findMethod?_untyped {d e : Declarations} (h : d.untyped = e.untyped)
    (owner : TypeId) (name : String) : d.findMethod? owner name = e.findMethod? owner name := by
  have hmethods : d.methods.map Pending.untyped = e.methods.map Pending.untyped :=
    congrArg Prod.snd h
  have hfind (c : Declarations) : c.findMethod? owner name =
      (c.methods.map Pending.untyped).findIdx? fun m =>
        m.owner = owner && m.signature.name = name := by
    rw [List.findIdx?_map]
    rfl
  rw [hfind d, hfind e, hmethods]

theorem Surroundings.Alike.receiverType? {S T : Surroundings} (h : S.Alike T) (slots : Scopes Slot)
    (e : Syntax.Expr) : Scoped.receiverType? S slots e = Scoped.receiverType? T slots e := by
  have htypes : S.declared.types = T.declared.types := congrArg Prod.fst h.declared
  unfold Scoped.receiverType? Declarations.findType?
  rw [htypes]

/-! ### Expressions -/

/-- What stands in place of an expression that is not resolved. -/
def missing (line : Nat) : Expr := .const line .null

mutual

/-- The untyped form of an expression where the visible names have some slots. -/
def bare (S : Surroundings) (slots : Scopes Slot) : Syntax.Expr → Expr
  | .literal span value => .const (S.lines.line span.start) (Resolve.literal value).1
  | .ident span name =>
    match slots.read? name with
    | some slot => .slot (S.lines.line span.start) slot
    | none => missing (S.lines.line span.start)
  | .list span items => .list (S.lines.line span.start) (bareAll S slots items)
  | .unary span op operand => .unary (S.lines.line span.start) op (bare S slots operand)
  | .binary span op left right =>
    .binary (S.lines.line span.start) op (bare S slots left) (bare S slots right)
  | .index span target place =>
    .index (S.lines.line span.start) (bare S slots target) (bare S slots place)
  | .call span callee args =>
    let line := S.lines.line span.start
    let args := bareAll S slots args
    match slots.read? callee.text with
    | some slot => .callSlot line slot callee.text args
    | none =>
      match S.declared.findMethod? S.owner callee.text with
      | some id => .callMethod line id args
      | none =>
        match S.refs.function? callee.text with
        | some g => .callFunction line g args
        | none => missing line
  | .method span receiver method args =>
    let line := S.lines.line span.start
    let args := bareAll S slots args
    match receiverType? S slots receiver with
    | some type =>
      match S.declared.findMethod? type method.text with
      | some id => .callMethod line id args
      | none => missing line
    | none =>
      .dynamic line method.text (bare S slots receiver) args (S.refs.documentMethod? method.text)
        (S.refs.function? method.text)

def bareAll (S : Surroundings) (slots : Scopes Slot) : List Syntax.Expr → List Expr
  | [] => []
  | e :: es => bare S slots e :: bareAll S slots es

end

/-- A filter that keeps something keeps all. -/
theorem filter_eq_of_isSome {α : Type} {o : Option α} {p : α → Bool}
    (h : (o.filter p).isSome = true) : o.filter p = o := by
  cases o with
  | none => rfl
  | some a =>
    cases hp : p a with
    | true => exact Option.filter_some_pos hp
    | false =>
      rw [Option.filter_some_neg (by simp [hp])] at h
      cases h

section

variable {S T : Surroundings}

/-- A call on a receiver that shows its type at run time leaves out nothing that has the name. -/
theorem dynamic_found (hapart : S.refs.Apart) {name : String} {args : List Expr}
    (h : (documentFor S name args).isSome ∨ (functionFor S name args).isSome) :
    documentFor S name args = S.refs.documentMethod? name ∧
      functionFor S name args = S.refs.function? name := by
  unfold documentFor functionFor at h ⊢
  rcases hapart name with hnone | hnone
  · rw [hnone] at h ⊢
    exact ⟨filter_eq_of_isSome (h.resolve_right (by simp)), rfl⟩
  · rw [hnone] at h ⊢
    exact ⟨rfl, filter_eq_of_isSome (h.resolve_left (by simp))⟩

mutual

/-- **Static types leave no trace** in the untyped form of an expression. -/
theorem Resolves.untyped (hS : S.Alike T) (hapart : S.refs.Apart) {v : View} :
    ∀ (e : Syntax.Expr) {e' : Expr}, Resolves S v e e' → e'.untyped = bare T v.slots e
  | .literal _ _, _, .literal => by rw [bare, ← hS.lines, Expr.untyped]
  | .ident _ _, _, .ident found => by rw [bare, ← hS.lines, found, Expr.untyped]
  | .list _ items, _, .list parts => by
    rw [bare, ← hS.lines, Expr.untyped, Resolves.untypedAll hS hapart items parts]
  | .unary _ _ e, _, .unary part => by
    rw [bare, ← hS.lines, Expr.untyped, Resolves.untyped hS hapart e part]
  | .binary _ _ l r, _, .binary left right => by
    rw [bare, ← hS.lines, Expr.untyped, Resolves.untyped hS hapart l left,
      Resolves.untyped hS hapart r right]
  | .index _ t p, _, .index target place => by
    rw [bare, ← hS.lines, Expr.untyped, Resolves.untyped hS hapart t target,
      Resolves.untyped hS hapart p place]
  | .call _ _ args, _, .callLocal parts found => by
    rw [bare, ← hS.lines, found, Expr.untyped, Resolves.untypedAll hS hapart args parts]
  | .call _ callee args, _, .callOwn parts free found _ => by
    rw [bare, ← hS.lines, ← hS.owner, ← Declarations.findMethod?_untyped hS.declared, free, found,
      Expr.untyped, Resolves.untypedAll hS hapart args parts]
  | .call _ callee args, _, .callFunction parts free noMethod found _ => by
    rw [bare, ← hS.lines, ← hS.owner, ← Declarations.findMethod?_untyped hS.declared, ← hS.refs, free,
      noMethod, found, Expr.untyped, Resolves.untypedAll hS hapart args parts]
  | .method _ _ _ args, _, .qualified named parts found _ => by
    rw [bare, ← hS.lines, ← hS.receiverType?, named]
    simp only
    rw [← Declarations.findMethod?_untyped hS.declared, found, Expr.untyped,
      Resolves.untypedAll hS hapart args parts]
  | .method _ r method args, _, .document noType object parts _ found _ => by
    rw [bare, ← hS.lines, ← hS.receiverType?, noType, ← hS.refs, found,
      hapart.function?_none found, Expr.untyped, ReferenceSet.documentMethod?_name found,
      Resolves.untyped hS hapart r object, Resolves.untypedAll hS hapart args parts]
    rfl
  | .method _ r method args, _, .dynamic noType object parts _ found => by
    obtain ⟨hdocument, hfunction⟩ := dynamic_found hapart found
    rw [bare, ← hS.lines, ← hS.receiverType?, noType, ← hS.refs, hdocument, hfunction, Expr.untyped,
      Resolves.untyped hS hapart r object, Resolves.untypedAll hS hapart args parts]
  | .method _ r method args, _, .receiver noType object parts _ _ found _ => by
    rw [bare, ← hS.lines, ← hS.receiverType?, noType, ← hS.refs, found,
      hapart.documentMethod?_none found, Expr.untyped, Expr.untypedAll,
      Resolves.untyped hS hapart r object, Resolves.untypedAll hS hapart args parts]
    rfl

theorem Resolves.untypedAll (hS : S.Alike T) (hapart : S.refs.Apart) {v : View} :
    ∀ (es : List Syntax.Expr) {es' : List Expr}, List.Forall₂ (Resolves S v) es es' →
      Expr.untypedAll es' = bareAll T v.slots es
  | [], _, .nil => rfl
  | e :: es, _, .cons head tail => by
    rw [bareAll, Expr.untypedAll, Resolves.untyped hS hapart e head,
      Resolves.untypedAll hS hapart es tail]

end

end

/-! ### Statements -/

/-- Names stand for the same slots in two views, whatever their types are. -/
structure View.Alike (v w : View) : Prop where
  slots : v.slots = w.slots
  size : v.size = w.size

namespace View.Alike

variable {v w : View} (h : v.Alike w)

include h

theorem enter : v.enter.Alike w.enter := ⟨congrArg Scopes.enter h.slots, h.size⟩

theorem leave : v.leave.Alike w.leave := ⟨congrArg Scopes.leave h.slots, h.size⟩

theorem declare (name : String) (ty ty' : Ty) : (v.declare name ty).Alike (w.declare name ty') := by
  refine ⟨?_, congrArg (· + 1) h.size⟩
  show v.slots.declare name v.size = w.slots.declare name w.size
  rw [h.slots, h.size]

end View.Alike

section

variable {S T : Surroundings}

/-- An expression that two sources have at places where the names have the same slots. -/
theorem Resolves.untyped_eq (hS : S.Alike T) (hapart : S.refs.Apart) {v w : View} (hv : v.Alike w)
    {e : Syntax.Expr} {e₁ e₂ : Expr} (h₁ : Resolves S v e e₁) (h₂ : Resolves T w e e₂) :
    e₁.untyped = e₂.untyped := by
  have hapart' : T.refs.Apart := hS.refs ▸ hapart
  rw [Resolves.untyped hS hapart e h₁, Resolves.untyped (.refl T) hapart' e h₂, hv.slots]

mutual

theorem ResolvesStmt.untyped_eq (hS : S.Alike T) (hapart : S.refs.Apart) :
    ∀ (s : Syntax.Stmt) {v w v' w' : View} {t₁ t₂ : Stmt},
    v.Alike w → ResolvesStmt S v s t₁ v' → ResolvesStmt T w s t₂ w' →
      t₁.untyped = t₂.untyped ∧ v'.Alike w'
  | .declare _ name e, _, _, _, _, _, _, hv, .declare value, .declare value' => by
    refine ⟨?_, hv.declare name.text _ _⟩
    rw [Stmt.untyped, Stmt.untyped, Resolves.untyped_eq hS hapart hv value value', hS.lines, hv.size]
  | .assign _ _ _, _, _, _, _, _, _, hv, .assign value found, .assign value' found' => by
    rw [hv.slots, found'] at found
    refine ⟨?_, hv.slots, hv.size⟩
    rw [Stmt.untyped, Stmt.untyped, Resolves.untyped_eq hS hapart hv value value', hS.lines,
      Option.some.inj found]
  | .expr _ _, _, _, _, _, _, _, hv, .expr value, .expr value' => by
    refine ⟨?_, hv⟩
    rw [Stmt.untyped, Stmt.untyped, Resolves.untyped_eq hS hapart hv value value', hS.lines]
  | .branch _ branches otherwise, _, _, _, _, _, _, hv, .branch arms last, .branch arms' last' => by
    obtain ⟨harms, hmid⟩ := ResolvesArms.untyped_eq hS hapart branches hv arms arms'
    obtain ⟨hlast, hend⟩ := ResolvesOtherwise.untyped_eq hS hapart otherwise hmid last last'
    refine ⟨?_, hend⟩
    rw [Stmt.untyped, Stmt.untyped, harms, hlast, hS.lines]
  | .loop _ _ body, _, _, _, _, _, _, hv, .loop test block, .loop test' block' => by
    obtain ⟨hbody, hend⟩ := ResolvesStmts.untyped_eq hS hapart body hv.enter block block'
    refine ⟨?_, hend.leave⟩
    rw [Stmt.untyped, Stmt.untyped, Resolves.untyped_eq hS hapart hv test test', hbody, hS.lines]
  | .forEach _ binding _ body, _, _, _, _, _, _, hv, .forEach values block,
      .forEach values' block' => by
    obtain ⟨hbody, hend⟩ := ResolvesStmts.untyped_eq hS hapart body
      (hv.enter.declare binding.text _ _).enter block block'
    refine ⟨?_, hend.leave.leave⟩
    rw [Stmt.untyped, Stmt.untyped, Resolves.untyped_eq hS hapart hv values values', hbody, hS.lines,
      hv.size]
  | .forRange _ binding _ _ body, _, _, _, _, _, _, hv, .forRange first last block,
      .forRange first' last' block' => by
    obtain ⟨hbody, hend⟩ := ResolvesStmts.untyped_eq hS hapart body
      (hv.enter.declare binding.text _ _).enter block block'
    refine ⟨?_, hend.leave.leave⟩
    rw [Stmt.untyped, Stmt.untyped, Resolves.untyped_eq hS hapart hv first first',
      Resolves.untyped_eq hS hapart hv last last', hbody, hS.lines, hv.size]
  | .result _ none, _, _, _, _, _, _, hv, .leave, .leave => by
    refine ⟨?_, hv⟩
    rw [hS.lines]
  | .result _ (some _), _, _, _, _, _, _, hv, .result value, .result value' => by
    refine ⟨?_, hv⟩
    rw [Stmt.untyped, Stmt.untyped, Resolves.untyped_eq hS hapart hv value value', hS.lines]

theorem ResolvesStmts.untyped_eq (hS : S.Alike T) (hapart : S.refs.Apart) :
    ∀ (ss : List Syntax.Stmt) {v w v' w' : View} {ts us : List Stmt},
    v.Alike w → ResolvesStmts S v ss ts v' → ResolvesStmts T w ss us w' →
      Stmt.untypedAll ts = Stmt.untypedAll us ∧ v'.Alike w'
  | [], _, _, _, _, _, _, hv, .nil, .nil => ⟨rfl, hv⟩
  | s :: ss, _, _, _, _, _, _, hv, .cons head tail, .cons head' tail' => by
    obtain ⟨hhead, hmid⟩ := ResolvesStmt.untyped_eq hS hapart s hv head head'
    obtain ⟨htail, hend⟩ := ResolvesStmts.untyped_eq hS hapart ss hmid tail tail'
    refine ⟨?_, hend⟩
    rw [Stmt.untypedAll, Stmt.untypedAll, hhead, htail]

theorem ResolvesArms.untyped_eq (hS : S.Alike T) (hapart : S.refs.Apart) :
    ∀ (bs : List (Syntax.Expr × List Syntax.Stmt)) {v w v' w' : View}
    {cs ds : List (Expr × List Stmt)}, v.Alike w → ResolvesArms S v bs cs v' →
      ResolvesArms T w bs ds w' → Stmt.untypedArms cs = Stmt.untypedArms ds ∧ v'.Alike w'
  | [], _, _, _, _, _, _, hv, .nil, .nil => ⟨rfl, hv⟩
  | (_, body) :: bs, _, _, _, _, _, _, hv, .cons test block tail, .cons test' block' tail' => by
    obtain ⟨hbody, hmid⟩ := ResolvesStmts.untyped_eq hS hapart body hv.enter block block'
    obtain ⟨htail, hend⟩ := ResolvesArms.untyped_eq hS hapart bs hmid.leave tail tail'
    refine ⟨?_, hend⟩
    rw [Stmt.untypedArms, Stmt.untypedArms, Resolves.untyped_eq hS hapart hv test test', hbody, htail]

theorem ResolvesOtherwise.untyped_eq (hS : S.Alike T) (hapart : S.refs.Apart) :
    ∀ (o : Option (List Syntax.Stmt)) {v w v' w' : View}
    {p q : Option (List Stmt)}, v.Alike w → ResolvesOtherwise S v o p v' →
      ResolvesOtherwise T w o q w' → Stmt.untypedOtherwise p = Stmt.untypedOtherwise q ∧ v'.Alike w'
  | none, _, _, _, _, _, _, hv, .none, .none => ⟨rfl, hv⟩
  | some body, _, _, _, _, _, _, hv, .some block, .some block' => by
    obtain ⟨hbody, hend⟩ := ResolvesStmts.untyped_eq hS hapart body hv.enter block block'
    refine ⟨?_, hend.leave⟩
    rw [Stmt.untypedOtherwise, Stmt.untypedOtherwise, hbody]

end

end

/-! ### Programs -/

theorem Pending.owner_eq {m n : Pending} (h : m.untyped = n.untyped) : m.owner = n.owner :=
  congrArg (fun u => u.owner) h

theorem paramsView_alike {m n : Pending} (h : m.untyped = n.untyped) :
    (paramsView m).Alike (paramsView n) := by
  have hparams : m.signature.params.length = n.signature.params.length := by
    simpa [Pending.untyped, Signature.untyped] using
      congrArg (fun u => u.signature.params.length) h
  have hnames : m.declaration.params.map (fun p => p.name.text) =
      n.declaration.params.map fun p => p.name.text := by
    have hall := congrArg (fun u => u.declaration.params.map fun p => p.name.text) h
    simp only [Pending.untyped, Syntax.Method.untyped, List.map_map] at hall
    exact hall
  refine ⟨?_, hparams⟩
  unfold paramsView Scoped.parameters
  simp only
  rw [hnames, hparams]

/-- Two methods that differ in types only, with their bodies resolved. -/
theorem Implements.untyped_eq {S T : Surroundings} (hS : S.Alike T) (hapart : S.refs.Apart)
    {m n : Pending} (hmn : m.untyped = n.untyped) {m' n' : Method} (hm : Implements S m m')
    (hn : Implements T n n') : m'.untyped = n'.untyped := by
  have hbodies : m.declaration.body = n.declaration.body :=
    congrArg (fun u => u.declaration.body) hmn
  obtain ⟨v, hv, hsizeV⟩ := hm.body
  obtain ⟨w, hw, hsizeW⟩ := hn.body
  rw [← hbodies] at hw
  obtain ⟨hbody, hend⟩ := ResolvesStmts.untyped_eq hS hapart _ (paramsView_alike hmn).enter hv hw
  have hsignature : m.signature.untyped = n.signature.untyped := congrArg Pending.signature hmn
  have howner : m.owner = n.owner := Pending.owner_eq hmn
  unfold Method.untyped
  rw [hm.signature, hn.signature, hm.owner, hn.owner, hsizeV, hsizeW, hend.size, hbody, hsignature,
    howner]

theorem methods_resolve (refs : ReferenceSet) (lines : LineIndex) (file : Syntax.File)
    (id : MethodId) :
    (resolve refs lines file).1.methods[id]? = ((declarations refs file).methods[id]?).map fun m =>
      (resolveMethod refs lines (declarations refs file) m).1 := by
  show (((declarations refs file).methods.map
    (resolveMethod refs lines (declarations refs file))).map Prod.fst)[id]? = _
  rw [List.getElem?_map, List.getElem?_map, Option.map_map]
  rfl

/-- Sources that differ in annotations only have the same untyped program. -/
theorem resolve_untyped_eq {refs : ReferenceSet} (hapart : refs.Apart) {lines : LineIndex}
    {f g : Syntax.File} (h : f.untyped = g.untyped) (hf : Clean (resolve refs lines f).2)
    (hg : Clean (resolve refs lines g).2) :
    (resolve refs lines f).1.untyped = (resolve refs lines g).1.untyped := by
  have hdeclared := declarations_untyped_eq refs h
  have htypes : (declarations refs f).types = (declarations refs g).types :=
    congrArg Prod.fst hdeclared
  have hmethods (id : MethodId) : ((declarations refs f).methods[id]?).map Pending.untyped =
      ((declarations refs g).methods[id]?).map Pending.untyped := by
    rw [← List.getElem?_map, ← List.getElem?_map]
    exact congrArg (fun u => u.2[id]?) hdeclared
  have hall : (resolve refs lines f).1.methods.map Method.untyped =
      (resolve refs lines g).1.methods.map Method.untyped := by
    refine List.ext_getElem? fun id => ?_
    have hid := hmethods id
    rw [List.getElem?_map, List.getElem?_map]
    cases hm : (declarations refs f).methods[id]? with
    | none =>
      rw [hm, Option.map_none, eq_comm, Option.map_eq_none_iff] at hid
      rw [methods_resolve, methods_resolve, hm, hid]
      rfl
    | some m =>
      rw [hm, Option.map_some, eq_comm, Option.map_eq_some_iff] at hid
      obtain ⟨n, hn, hnm⟩ := hid
      obtain ⟨m', hm', himplements⟩ := resolve_implements hf hm
      obtain ⟨n', hn', himplements'⟩ := resolve_implements hg hn
      have hS : Surroundings.Alike ⟨refs, lines, declarations refs f, m.owner⟩
          ⟨refs, lines, declarations refs g, n.owner⟩ :=
        ⟨rfl, rfl, Pending.owner_eq hnm.symm, hdeclared⟩
      rw [hm', hn', Option.map_some, Option.map_some,
        himplements.untyped_eq hS hapart hnm.symm himplements']
  show (⟨_, _⟩ : Program) = ⟨_, _⟩
  rw [hall]
  exact congrArg (Program.mk · _) htypes

end Program

namespace Machine

open Program (Clean resolve)

/-- **Annotations are irrelevant at run time**: where no name is both a function and a document method,
two sources that differ only in the types of parameters and results, both without an error, run alike.
Every method, on any arguments and in any state of the document and the log, gives the same value or
fails on the same line of the same method, and leaves the same state. -/
theorem annotations_irrelevant {refs : ReferenceSet} (hapart : refs.Apart) {lines : LineIndex}
    {f g : Syntax.File} (h : f.untyped = g.untyped) (hf : Clean (resolve refs lines f).2)
    (hg : Clean (resolve refs lines g).2) (steps depth : Nat) (id : Program.MethodId)
    (args : List Value) (world : World) :
    EndsAlike (invoke (resolve refs lines f).1 steps depth id args world)
      (invoke (resolve refs lines g).1 steps depth id args world) := by
  have hleft := agrees_invoke (resolve refs lines f).1 steps depth id args world
  have hright := agrees_invoke (resolve refs lines g).1 steps depth id args world
  rw [← Program.resolve_untyped_eq hapart h hf hg] at hright
  exact hleft.trans hright.symm

/-- No function of the standard libraries has the name of a document method. -/
theorem apart_standard {refs : ReferenceSet}
    (hrefs : ∀ l ∈ refs.libraries, l ∈ Catalog.standard.libraries) : refs.Apart := by
  have hnames : ∀ l ∈ Catalog.standard.libraries, ∀ g ∈ l.functions,
      ∀ k ∈ Catalog.standard.libraries, ∀ m ∈ k.documentMethods, g.name ≠ m.name := by
    decide
  intro name
  cases hg : refs.function? name with
  | none => exact .inl rfl
  | some g =>
    refine .inr (Option.eq_none_iff_forall_ne_some.mpr fun m hm => ?_)
    obtain ⟨l, hl, hgl⟩ := List.mem_flatMap.mp (List.mem_of_find?_eq_some hg)
    obtain ⟨k, hk, hmk⟩ := List.mem_flatMap.mp (List.mem_of_find?_eq_some hm)
    have hgname := List.find?_some hg
    refine hnames l (hrefs l hl) g hgl k (hrefs k hk) m hmk ?_
    rw [ReferenceSet.documentMethod?_name hm]
    exact of_decide_eq_true hgname

/-- A method that writes a text to the document and gives it back in capitals, for some types of the
document and the text. -/
def shouting (document text : String) : Syntax.File :=
  let ident (name : String) : Syntax.Ident := ⟨name, ⟨0, 0⟩⟩
  let name (name : String) : Syntax.Expr := .ident ⟨0, 0⟩ name
  ⟨[.mk ⟨0, 0⟩ (ident "T") [.inl
    { span := ⟨0, 0⟩, isStatic := true, name := ident "shout"
      params := [⟨ident "d", .named ⟨0, 0⟩ document⟩, ⟨ident "s", .named ⟨0, 0⟩ text⟩]
      returns := some (.named ⟨0, 0⟩ text)
      body := [
        .expr ⟨0, 0⟩ (.method ⟨0, 0⟩ (name "d") (ident "paragraph") [name "s"]),
        .result ⟨0, 0⟩ (some (.method ⟨0, 0⟩ (name "s") (ident "upper") []))] }]]⟩

theorem annotations_irrelevant_shouting :
    EndsAlike
      (invoke (resolve ⟨Catalog.standard.libraries⟩ ⟨[0]⟩ (shouting "Document" "string")).1 0 0 0
        [.document, .int 4] {})
      (invoke (resolve ⟨Catalog.standard.libraries⟩ ⟨[0]⟩ (shouting "any" "any")).1 0 0 0
        [.document, .int 4] {}) :=
  annotations_irrelevant (apart_standard fun _ h => h) rfl (by unfold Clean; decide +kernel)
    (by unfold Clean; decide +kernel) 0 0 0 [.document, .int 4] {}

end Machine

end ReportTemplate
