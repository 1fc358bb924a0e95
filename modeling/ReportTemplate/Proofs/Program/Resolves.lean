import ReportTemplate.Proofs.Scoped.Interpreter

/-!
# ReportTemplate.Proofs.Program.Resolves — what a resolved body looks like

`Resolves S v e e'` says that the expression `e` becomes `e'` where the names stand for the slots of the
view `v`: every form of call carries what was checked for it.  `ResolvesStmt S v s s' w` says the same
of a statement, behind which the view is `w`.
-/

namespace ReportTemplate.Program

open Scoped (typeOf receiverType? assignType afterStmt afterAll afterArms afterOtherwise)

/-! ### Views -/

/-- What the names stand for at a place of a method: their slots and static types, and the number of
slots that have been given out. -/
structure View where
  slots : Scopes Slot
  types : Scopes Ty
  size : Nat

namespace View

def enter (v : View) : View := ⟨v.slots.enter, v.types.enter, v.size⟩

def leave (v : View) : View := ⟨v.slots.leave, v.types.leave, v.size⟩

/-- A new local in a slot of its own. -/
def declare (v : View) (name : String) (ty : Ty) : View :=
  ⟨v.slots.declare name v.size, v.types.declare name ty, v.size + 1⟩

/-- Different names have different slots, and all of them have been given out. -/
structure Good (v : View) : Prop where
  nodup : v.slots.all.Nodup
  lt_size : ∀ slot ∈ v.slots.all, slot < v.size

variable {v w : View}

theorem Good.enter (h : v.Good) : v.enter.Good := ⟨h.nodup, h.lt_size⟩

theorem Good.declare (h : v.Good) (name : String) (ty : Ty) : (v.declare name ty).Good := by
  refine ⟨?_, fun slot hslot => ?_⟩
  · show (v.slots.declare name v.size).all.Nodup
    rw [Scopes.all_declare, List.nodup_cons]
    exact ⟨fun hmem => Nat.lt_irrefl _ (h.lt_size _ hmem), h.nodup⟩
  · have hslot : slot ∈ (v.slots.declare name v.size).all := hslot
    rw [Scopes.all_declare] at hslot
    show slot < v.size + 1
    rcases List.mem_cons.mp hslot with rfl | hslot
    · exact Nat.lt_succ_self _
    · exact Nat.lt_succ_of_lt (h.lt_size _ hslot)

/-- Behind a statement the outer scopes have the slots that they had, and more slots may have been given
out. -/
structure Extends (v w : View) : Prop where
  good : v.Good → w.Good
  size_le : v.size ≤ w.size
  leave_slots : w.slots.leave = v.slots.leave

theorem Extends.refl (v : View) : Extends v v := ⟨id, Nat.le_refl _, rfl⟩

theorem Extends.trans {u : View} (h₁ : Extends u v) (h₂ : Extends v w) : Extends u w :=
  ⟨fun h => h₂.good (h₁.good h), Nat.le_trans h₁.size_le h₂.size_le,
    h₂.leave_slots.trans h₁.leave_slots⟩

theorem Extends.declare (v : View) (name : String) (ty : Ty) : Extends v (v.declare name ty) :=
  ⟨fun h => h.declare name ty, Nat.le_succ _, Scopes.leave_declare name v.size v.slots⟩

theorem Extends.types (v : View) (types : Scopes Ty) : Extends v { v with types := types } :=
  ⟨fun h => ⟨h.nodup, h.lt_size⟩, Nat.le_refl _, rfl⟩

/-- A block gives the slots of its scope back. -/
theorem Extends.leave_slots_eq (h : Extends v.enter w) : w.leave.slots = v.slots := h.leave_slots

theorem Extends.block (h : Extends v.enter w) : Extends v w.leave := by
  refine ⟨fun hv => ⟨?_, fun slot hslot => ?_⟩, h.size_le, ?_⟩
  · rw [h.leave_slots_eq]
    exact hv.nodup
  · rw [h.leave_slots_eq] at hslot
    exact Nat.lt_of_lt_of_le (hv.lt_size slot hslot) h.size_le
  · rw [h.leave_slots_eq]

end View

/-! ### Expressions -/

section

variable (S : Surroundings)

/-- A static method with as many parameters as there are arguments. -/
def Callable (id : MethodId) (args : List Expr) : Prop :=
  ∃ m, S.declared.methods[id]? = some m ∧ m.signature.isStatic = true ∧
    m.signature.params.length = args.length

/-- The document method of a name that takes some arguments. -/
def documentFor (name : String) (args : List Expr) : Option DocumentMethod :=
  (S.refs.documentMethod? name).filter fun m => m.params = args.length

/-- The library function of a name that takes a receiver and some arguments. -/
def functionFor (name : String) (args : List Expr) : Option Function :=
  (S.refs.function? name).filter fun g => g.params = args.length + 1

/-- An expression becomes another one where the names stand for the slots of a view. -/
inductive Resolves (v : View) : Syntax.Expr → Expr → Prop
  | literal {span : Span} {value : Syntax.Literal} :
      Resolves v (.literal span value) (.const (S.lines.line span.start) (Resolve.literal value).1)
  | ident {span : Span} {name : String} {slot : Slot} (found : v.slots.read? name = some slot) :
      Resolves v (.ident span name) (.slot (S.lines.line span.start) slot)
  | list {span : Span} {items : List Syntax.Expr} {items' : List Expr}
      (parts : List.Forall₂ (Resolves v) items items') :
      Resolves v (.list span items) (.list (S.lines.line span.start) items')
  | unary {span : Span} {op : Syntax.UnaryOp} {e : Syntax.Expr} {e' : Expr} (part : Resolves v e e') :
      Resolves v (.unary span op e) (.unary (S.lines.line span.start) op e')
  | binary {span : Span} {op : Syntax.BinaryOp} {l r : Syntax.Expr} {l' r' : Expr}
      (left : Resolves v l l') (right : Resolves v r r') :
      Resolves v (.binary span op l r) (.binary (S.lines.line span.start) op l' r')
  | index {span : Span} {t p : Syntax.Expr} {t' p' : Expr}
      (target : Resolves v t t') (place : Resolves v p p') :
      Resolves v (.index span t p) (.index (S.lines.line span.start) t' p')
  | callLocal {span : Span} {callee : Syntax.Ident} {args : List Syntax.Expr} {args' : List Expr}
      {slot : Slot} (parts : List.Forall₂ (Resolves v) args args')
      (found : v.slots.read? callee.text = some slot) :
      Resolves v (.call span callee args)
        (.callSlot (S.lines.line span.start) slot callee.text args')
  | callOwn {span : Span} {callee : Syntax.Ident} {args : List Syntax.Expr} {args' : List Expr}
      {id : MethodId} (parts : List.Forall₂ (Resolves v) args args')
      (free : v.slots.read? callee.text = none)
      (found : S.declared.findMethod? S.owner callee.text = some id) (callable : Callable S id args') :
      Resolves v (.call span callee args) (.callMethod (S.lines.line span.start) id args')
  | callFunction {span : Span} {callee : Syntax.Ident} {args : List Syntax.Expr} {args' : List Expr}
      {g : Function} (parts : List.Forall₂ (Resolves v) args args')
      (free : v.slots.read? callee.text = none)
      (noMethod : S.declared.findMethod? S.owner callee.text = none)
      (found : S.refs.function? callee.text = some g) (count : g.params = args'.length) :
      Resolves v (.call span callee args) (.callFunction (S.lines.line span.start) g args')
  | qualified {span : Span} {receiver : Syntax.Expr} {method : Syntax.Ident}
      {args : List Syntax.Expr} {args' : List Expr} {type : TypeId} {id : MethodId}
      (named : receiverType? S v.slots receiver = some type)
      (parts : List.Forall₂ (Resolves v) args args')
      (found : S.declared.findMethod? type method.text = some id) (callable : Callable S id args') :
      Resolves v (.method span receiver method args) (.callMethod (S.lines.line span.start) id args')
  | document {span : Span} {receiver : Syntax.Expr} {method : Syntax.Ident}
      {args : List Syntax.Expr} {r' : Expr} {args' : List Expr} {m : DocumentMethod}
      (noType : receiverType? S v.slots receiver = none) (object : Resolves v receiver r')
      (parts : List.Forall₂ (Resolves v) args args')
      (static : typeOf S v.types receiver = .document)
      (found : S.refs.documentMethod? method.text = some m) (count : m.params = args'.length) :
      Resolves v (.method span receiver method args)
        (.callDocument (S.lines.line span.start) m r' args')
  | dynamic {span : Span} {receiver : Syntax.Expr} {method : Syntax.Ident}
      {args : List Syntax.Expr} {r' : Expr} {args' : List Expr}
      (noType : receiverType? S v.slots receiver = none) (object : Resolves v receiver r')
      (parts : List.Forall₂ (Resolves v) args args') (static : typeOf S v.types receiver = .any)
      (found : (documentFor S method.text args').isSome ∨ (functionFor S method.text args').isSome) :
      Resolves v (.method span receiver method args)
        (.callDynamic (S.lines.line span.start) method.text r' args'
          (documentFor S method.text args') (functionFor S method.text args'))
  | receiver {span : Span} {receiver : Syntax.Expr} {method : Syntax.Ident}
      {args : List Syntax.Expr} {r' : Expr} {args' : List Expr} {g : Function}
      (noType : receiverType? S v.slots receiver = none) (object : Resolves v receiver r')
      (parts : List.Forall₂ (Resolves v) args args')
      (noDocument : typeOf S v.types receiver ≠ .document)
      (static : typeOf S v.types receiver ≠ .any)
      (found : S.refs.function? method.text = some g) (count : g.params - 1 = args'.length) :
      Resolves v (.method span receiver method args)
        (.callFunction (S.lines.line span.start) g (r' :: args'))

theorem Resolves.line {v : View} {e : Syntax.Expr} {e' : Expr} (h : Resolves S v e e') :
    e'.line = S.lines.line e.span.start := by
  cases h <;> rfl

/-! ### Statements -/

mutual

/-- A statement becomes another one where the names have a view, and behind it they have another. -/
inductive ResolvesStmt : View → Syntax.Stmt → Stmt → View → Prop
  | declare {v : View} {span : Span} {name : Syntax.Ident} {e : Syntax.Expr} {e' : Expr}
      (value : Resolves S v e e') :
      ResolvesStmt v (.declare span name e) (.store (S.lines.line span.start) v.size e')
        (v.declare name.text (typeOf S v.types e))
  | assign {v : View} {span : Span} {name : Syntax.Ident} {e : Syntax.Expr} {e' : Expr} {slot : Slot}
      (value : Resolves S v e e') (found : v.slots.read? name.text = some slot) :
      ResolvesStmt v (.assign span name e) (.store (S.lines.line span.start) slot e')
        { v with types := assignType name.text (typeOf S v.types e) v.types }
  | expr {v : View} {span : Span} {e : Syntax.Expr} {e' : Expr} (value : Resolves S v e e') :
      ResolvesStmt v (.expr span e) (.expr (S.lines.line span.start) e') v
  | branch {v w w' : View} {span : Span} {branches : List (Syntax.Expr × List Syntax.Stmt)}
      {otherwise : Option (List Syntax.Stmt)} {branches' : List (Expr × List Stmt)}
      {otherwise' : Option (List Stmt)} (arms : ResolvesArms v branches branches' w)
      (last : ResolvesOtherwise w otherwise otherwise' w') :
      ResolvesStmt v (.branch span branches otherwise)
        (.branch (S.lines.line span.start) branches' otherwise') w'
  | loop {v w : View} {span : Span} {cond : Syntax.Expr} {body : List Syntax.Stmt} {cond' : Expr}
      {body' : List Stmt} (test : Resolves S v cond cond')
      (block : ResolvesStmts v.enter body body' w) :
      ResolvesStmt v (.loop span cond body) (.loop (S.lines.line span.start) cond' body') w.leave
  | forEach {v w : View} {span : Span} {binding : Syntax.Ident} {items : Syntax.Expr}
      {body : List Syntax.Stmt} {items' : Expr} {body' : List Stmt}
      (values : Resolves S v items items')
      (block : ResolvesStmts (v.enter.declare binding.text .any).enter body body' w) :
      ResolvesStmt v (.forEach span binding items body)
        (.forEach (S.lines.line span.start) v.size items' body') w.leave.leave
  | forRange {v w : View} {span : Span} {binding : Syntax.Ident} {start stop : Syntax.Expr}
      {body : List Syntax.Stmt} {start' stop' : Expr} {body' : List Stmt}
      (first : Resolves S v start start') (last : Resolves S v stop stop')
      (block : ResolvesStmts (v.enter.declare binding.text .int).enter body body' w) :
      ResolvesStmt v (.forRange span binding start stop body)
        (.forRange (S.lines.line span.start) v.size start' stop' body') w.leave.leave
  | leave {v : View} {span : Span} :
      ResolvesStmt v (.result span none) (.result (S.lines.line span.start) none) v
  | result {v : View} {span : Span} {e : Syntax.Expr} {e' : Expr} (value : Resolves S v e e') :
      ResolvesStmt v (.result span (some e)) (.result (S.lines.line span.start) (some e')) v

inductive ResolvesStmts : View → List Syntax.Stmt → List Stmt → View → Prop
  | nil {v : View} : ResolvesStmts v [] [] v
  | cons {v w w' : View} {s : Syntax.Stmt} {ss : List Syntax.Stmt} {t : Stmt} {ts : List Stmt}
      (head : ResolvesStmt v s t w) (tail : ResolvesStmts w ss ts w') :
      ResolvesStmts v (s :: ss) (t :: ts) w'

inductive ResolvesArms :
    View → List (Syntax.Expr × List Syntax.Stmt) → List (Expr × List Stmt) → View → Prop
  | nil {v : View} : ResolvesArms v [] [] v
  | cons {v w w' : View} {cond : Syntax.Expr} {body : List Syntax.Stmt} {cond' : Expr}
      {body' : List Stmt} {rest : List (Syntax.Expr × List Syntax.Stmt)}
      {rest' : List (Expr × List Stmt)} (test : Resolves S v cond cond')
      (block : ResolvesStmts v.enter body body' w) (tail : ResolvesArms w.leave rest rest' w') :
      ResolvesArms v ((cond, body) :: rest) ((cond', body') :: rest') w'

inductive ResolvesOtherwise : View → Option (List Syntax.Stmt) → Option (List Stmt) → View → Prop
  | none {v : View} : ResolvesOtherwise v .none .none v
  | some {v w : View} {body : List Syntax.Stmt} {body' : List Stmt}
      (block : ResolvesStmts v.enter body body' w) :
      ResolvesOtherwise v (.some body) (.some body') w.leave

end

end

/-! ### Views behind statements -/

section

variable {S : Surroundings}

mutual

theorem ResolvesStmt.extends : ∀ {v w : View} {s : Syntax.Stmt} {t : Stmt},
    ResolvesStmt S v s t w → v.Extends w ∧ w.types = afterStmt S v.types s
  | v, _, .declare _ name e, _, .declare _ => ⟨.declare v name.text _, rfl⟩
  | v, _, .assign _ name e, _, .assign _ _ => ⟨.types v _, rfl⟩
  | v, _, .expr _ _, _, .expr _ => ⟨.refl v, rfl⟩
  | _, _, .branch _ branches otherwise, _, .branch arms last => by
    obtain ⟨h₁, ht₁⟩ := arms.extends
    obtain ⟨h₂, ht₂⟩ := last.extends
    exact ⟨h₁.trans h₂, by rw [ht₂, ht₁, afterStmt]⟩
  | _, _, .loop _ _ body, _, .loop _ block => by
    obtain ⟨h, ht⟩ := block.extends
    exact ⟨h.block, congrArg Scopes.leave ht⟩
  | v, _, .forEach _ binding _ body, _, .forEach _ block => by
    obtain ⟨h, ht⟩ := block.extends
    have hinner := (View.Extends.declare v.enter binding.text .any).trans h.block
    exact ⟨hinner.block, congrArg (fun t => Scopes.leave (Scopes.leave t)) ht⟩
  | v, _, .forRange _ binding _ _ body, _, .forRange _ _ block => by
    obtain ⟨h, ht⟩ := block.extends
    have hinner := (View.Extends.declare v.enter binding.text .int).trans h.block
    exact ⟨hinner.block, congrArg (fun t => Scopes.leave (Scopes.leave t)) ht⟩
  | v, _, .result _ none, _, .leave => ⟨.refl v, rfl⟩
  | v, _, .result _ (some _), _, .result _ => ⟨.refl v, rfl⟩

theorem ResolvesStmts.extends : ∀ {v w : View} {ss : List Syntax.Stmt} {ts : List Stmt},
    ResolvesStmts S v ss ts w → v.Extends w ∧ w.types = afterAll S v.types ss
  | v, _, [], _, .nil => ⟨.refl v, rfl⟩
  | _, _, _ :: _, _, .cons head tail => by
    obtain ⟨h₁, ht₁⟩ := head.extends
    obtain ⟨h₂, ht₂⟩ := tail.extends
    exact ⟨h₁.trans h₂, by rw [ht₂, ht₁, afterAll]⟩

theorem ResolvesArms.extends : ∀ {v w : View} {bs : List (Syntax.Expr × List Syntax.Stmt)}
    {cs : List (Expr × List Stmt)},
    ResolvesArms S v bs cs w → v.Extends w ∧ w.types = afterArms S v.types bs
  | v, _, [], _, .nil => ⟨.refl v, rfl⟩
  | _, _, (_, _) :: _, _, .cons _ block tail => by
    obtain ⟨h₁, ht₁⟩ := block.extends
    obtain ⟨h₂, ht₂⟩ := tail.extends
    refine ⟨h₁.block.trans h₂, ?_⟩
    rw [ht₂, afterArms]
    exact congrArg (fun t => afterArms S (Scopes.leave t) _) ht₁

theorem ResolvesOtherwise.extends : ∀ {v w : View} {o : Option (List Syntax.Stmt)}
    {p : Option (List Stmt)},
    ResolvesOtherwise S v o p w → v.Extends w ∧ w.types = afterOtherwise S v.types o
  | v, _, none, _, .none => ⟨.refl v, rfl⟩
  | _, _, some _, _, .some block => by
    obtain ⟨h, ht⟩ := block.extends
    exact ⟨h.block, congrArg Scopes.leave ht⟩

end

/-- Behind the block of a loop with a binding the names have the slots that they had. -/
theorem ResolvesStmts.binding_slots {v w : View} {name : String} {ty : Ty} {body : List Syntax.Stmt}
    {ts : List Stmt} (block : ResolvesStmts S (v.enter.declare name ty).enter body ts w) :
    w.leave.leave.slots = v.slots :=
  ((View.Extends.declare v.enter name ty).trans block.extends.1.block).leave_slots_eq

/-- Behind a branch the names have the slots that they had. -/
theorem ResolvesArms.slots_eq {bs : List (Syntax.Expr × List Syntax.Stmt)} : ∀ {v w : View}
    {cs : List (Expr × List Stmt)}, ResolvesArms S v bs cs w → w.slots = v.slots := by
  induction bs with
  | nil =>
    rintro v _ _ ⟨⟩
    rfl
  | cons b bs ih =>
    rintro v w _ (_ | ⟨_, block, tail⟩)
    exact (ih tail).trans block.extends.1.leave_slots_eq

theorem ResolvesOtherwise.slots_eq {v w : View} {o : Option (List Syntax.Stmt)}
    {p : Option (List Stmt)} (h : ResolvesOtherwise S v o p w) : w.slots = v.slots := by
  cases h with
  | none => rfl
  | some block => exact block.extends.1.leave_slots_eq

end

end ReportTemplate.Program
