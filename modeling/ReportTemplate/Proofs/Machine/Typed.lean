import ReportTemplate.Proofs.Machine.Halts
import ReportTemplate.Proofs.Program.Lines
import ReportTemplate.Proofs.Program.OperatorTypes

/-!
# ReportTemplate.Proofs.Machine.Typed — what an expression gives has its static type

Operators are typed soundly: if the static types of the operands describe what a run gives for them, the
static type of the operator describes its value, with `&&` and `||` also where the right side is left
alone.  From this, static types are sound in every expression, as far as locals and calls of methods have
the types that are declared for them, which nothing checks.
-/

namespace ReportTemplate

namespace Program

open Resolve (lookup use literal UsesKeep)

/-! ### Types of locals -/

/-- The values of the visible locals are described by their static types. -/
def Scope.Describes (σ : Scope) (locals : Array (Option Value)) : Prop :=
  ∀ name slot ty v, (lookup name σ).1 = some (slot, ty) → locals[slot]? = some (some v) → ty.Describes v

/-- What else a scope says of locals does not matter. -/
theorem Scope.Describes.of_types {σ τ : Scope} {locals : Array (Option Value)} (h : σ.Describes locals)
    (hvisible : τ.visible = σ.visible)
    (htypes : ∀ slot : Slot, (τ.locals[slot]?).map Local.ty = (σ.locals[slot]?).map Local.ty) :
    τ.Describes locals := by
  intro name
  have hlookup : (lookup name τ).1 = (lookup name σ).1 := by
    rw [Resolve.lookup_eq, Resolve.lookup_eq, hvisible]
    simp only [htypes]
  rw [hlookup]
  exact h name

theorem usesKeep_describes (locals : Array (Option Value)) :
    UsesKeep (fun _ => True) fun σ => σ.Describes locals where
  use slot σ h := h.of_types rfl fun i => Resolve.map_ty_use slot i σ
  name _ _ _ := .change fun _ h => h.of_types rfl fun _ => rfl
  call _ _ _ _ _ := .change fun _ h => h.of_types rfl fun _ => rfl

theorem describes_literal (l : Syntax.Literal) : (literal l).2.Describes (literal l).1 := by
  cases l with
  | null => exact .any _
  | bool b => exact .own (.bool b)
  | int n => exact .own (.int n)
  | float x => exact .own (.float x)
  | string s => exact .own (.str s)

end Program

namespace Machine

open Program (Expr Slot MethodId Scope Surroundings Declarations Pending)
open Program.Resolve

/-! ### Slots -/

/-- Where the computation gives a value, the slots are as they were. -/
def KeepsSlots {α : Type} (x : Exec α) : Prop := ∀ s a t, x s = .ok a t → t.locals = s.locals

namespace KeepsSlots

variable {α β : Type} {x : Exec α}

theorem pure (a : α) : KeepsSlots (Pure.pure a) := by
  rintro s _ _ ⟨⟩
  rfl

theorem bind {g : α → Exec β} (hx : KeepsSlots x) (hg : ∀ a, KeepsSlots (g a)) :
    KeepsSlots (x >>= g) := by
  intro s b u h
  obtain ⟨a, t, hfirst, hrest⟩ := bind_ok h
  exact (hg a t b u hrest).trans (hx s a t hfirst)

theorem change {k : State → State} (h : ∀ s, (k s).locals = s.locals) :
    KeepsSlots (modify k : Exec PUnit) := by
  rintro s _ _ ⟨⟩
  exact h s

variable (f : Frame) (line : Nat)

theorem fail (cause : Cause) : KeepsSlots (Machine.fail f line cause : Exec α) := nofun

theorem attempt (cause : Refusal → Cause) (r : Except Refusal α) :
    KeepsSlots (Machine.attempt f line cause r) := by
  intro s a t h
  obtain ⟨-, rfl⟩ := attempt_ok h
  rfl

theorem load (slot : Slot) : KeepsSlots (Machine.load slot) := by
  intro s v t h
  obtain ⟨-, rfl⟩ := load_ok h
  rfl

theorem inWorld (m : EStateM Halt World α) : KeepsSlots (Machine.inWorld m) := by
  intro s a t h
  obtain ⟨w, -, rfl⟩ := inWorld_ok h
  rfl

theorem truth (v : Value) : KeepsSlots (Machine.truth f line v) := by
  unfold Machine.truth
  split
  · exact .pure _
  · exact .fail f line _

theorem callLog (name : String) (args : List Value) : KeepsSlots (Machine.callLog f line name args) := by
  unfold Machine.callLog
  split
  · exact .bind (.change fun _ => rfl) fun _ => .pure _
  · exact .fail f line _

theorem callDocument (name : String) (m : DocumentMethod) (args : List Value) :
    KeepsSlots (Machine.callDocument f line name m args) :=
  (attempt f line _ _).bind fun _ => .bind (.change fun _ => rfl) fun _ => .pure _

theorem callDynamic (name : String) (receiver : Value) (args : List Value)
    (document : Option DocumentMethod) (function : Option Function) :
    KeepsSlots (Machine.callDynamic f line name receiver args document function) := by
  unfold Machine.callDynamic
  split
  · exact .callDocument f line _ _ _
  · split
    · exact .attempt f line _ _
    · exact .fail f line _

end KeepsSlots

section

variable (f : Frame)

theorem keepsSlots_condition {e : Expr} (h : KeepsSlots (eval f e)) : KeepsSlots (condition f e) :=
  h.bind fun v => .truth f e.line v

mutual

/-- An expression stores nothing. -/
theorem keepsSlots_eval : ∀ e : Expr, KeepsSlots (eval f e)
  | .const _ v => .pure v
  | .slot _ slot => .load slot
  | .list _ items => (keepsSlots_evalAll items).bind fun _ => .pure _
  | .unary line _ e => (keepsSlots_eval e).bind fun _ => .attempt f line _ _
  | .binary line op l r => by
    have hleft := keepsSlots_eval l
    have hright := keepsSlots_eval r
    have hother (op : Syntax.BinaryOp) : KeepsSlots (eval f l >>= fun a => eval f r >>= fun b =>
        attempt f line .refused (Value.binary op a b)) :=
      hleft.bind fun _ => hright.bind fun _ => .attempt f line _ _
    have hlast : KeepsSlots (condition f r >>= fun b => pure (Value.bool b)) :=
      (keepsSlots_condition f hright).bind fun _ => .pure _
    cases op
    case and =>
      rw [eval_and]
      refine (keepsSlots_condition f hleft).bind fun b => ?_
      split
      · exact hlast
      · exact .pure _
    case or =>
      rw [eval_or]
      refine (keepsSlots_condition f hleft).bind fun b => ?_
      split
      · exact .pure _
      · exact hlast
    all_goals exact hother _
  | .index line target place =>
    (keepsSlots_eval target).bind fun _ => (keepsSlots_eval place).bind fun _ => .attempt f line _ _
  | .callMethod line id args => by
    refine (keepsSlots_evalAll args).bind fun vs => ?_
    split
    · exact .inWorld _
    · exact .fail f line _
  | .callFunction line g args => (keepsSlots_evalAll args).bind fun _ => .attempt f line _ _
  | .callSlot line slot name args => by
    refine (keepsSlots_evalAll args).bind fun vs => (KeepsSlots.load slot).bind fun v => ?_
    split
    · exact .callLog f line name vs
    · exact .fail f line _
  | .callDocument line m receiver args => by
    refine (keepsSlots_eval receiver).bind fun r => (keepsSlots_evalAll args).bind fun vs => ?_
    split
    · exact .callDocument f line _ m vs
    · exact .fail f line _
  | .callDynamic line name receiver args document function =>
    (keepsSlots_eval receiver).bind fun r => (keepsSlots_evalAll args).bind fun vs =>
      .callDynamic f line name r vs document function

theorem keepsSlots_evalAll : ∀ es : List Expr, KeepsSlots (evalAll f es)
  | [] => .pure []
  | e :: es => (keepsSlots_eval e).bind fun _ => (keepsSlots_evalAll es).bind fun _ => .pure _

end

end

/-! ### Operators -/

/-- What an expression gives from a state on is described by the static type that comes with it. -/
def Typed (f : Frame) (s : State) (r : Expr × Ty) : Prop :=
  ∀ v t, eval f r.1 s = .ok v t → r.2.Describes v

section

variable {f : Frame} {s : State} {line : Nat}

theorem typed_any (e : Expr) : Typed f s (e, .any) := fun v _ _ => .any v

theorem typed_const {v : Value} {ty : Ty} (h : ty.Describes v) : Typed f s (.const line v, ty) := by
  rintro _ _ ⟨⟩
  exact h

theorem typed_list (items : List Expr) : Typed f s (.list line items, .list) := by
  intro v t heval
  obtain ⟨vs, u, -, hdone⟩ := bind_ok heval
  cases hdone
  exact .own (.list vs)

theorem Typed.unary (op : Syntax.UnaryOp) {e : Expr} {ty : Ty} (h : Typed f s (e, ty)) :
    Typed f s (.unary line op e, unaryType op ty) := by
  intro v t heval
  obtain ⟨a, u, ha, hop⟩ := bind_ok heval
  exact (h a u ha).unary (attempt_ok hop).1

/-- A logical operator gives a truth value, from whichever side it takes this. -/
theorem typed_logical {op : Syntax.BinaryOp} (hop : op = .and ∨ op = .or) (l r : Expr) :
    Typed f s (.binary line op l r, .bool) := by
  intro v t heval
  have hlast {u : State} (h : (condition f r >>= fun b => pure (Value.bool b)) u = .ok v t) :
      Ty.bool.Describes v := by
    obtain ⟨b, _, -, hb⟩ := bind_ok h
    cases hb
    exact .own (.bool b)
  rcases hop with rfl | rfl
  · rw [eval_and] at heval
    obtain ⟨b, u, -, h⟩ := bind_ok heval
    cases b with
    | true => exact hlast h
    | false =>
      cases h
      exact .own (.bool false)
  · rw [eval_or] at heval
    obtain ⟨b, u, -, h⟩ := bind_ok heval
    cases b with
    | true =>
      cases h
      exact .own (.bool true)
    | false => exact hlast h

/-- The right side is evaluated behind the left one, if at all. -/
theorem Typed.binary (op : Syntax.BinaryOp) {l r : Expr} {ty ty' : Ty} (hl : Typed f s (l, ty))
    (hr : ∀ a t, eval f l s = .ok a t → Typed f t (r, ty')) :
    Typed f s (.binary line op l r, binaryType op ty ty') := by
  have hother {v : Value} {t : State} (h : (eval f l >>= fun a => eval f r >>= fun b =>
      attempt f line .refused (Value.binary op a b)) s = .ok v t) :
      (binaryType op ty ty').Describes v := by
    obtain ⟨a, u, ha, h⟩ := bind_ok h
    obtain ⟨b, w, hb, h⟩ := bind_ok h
    exact (hl a u ha).binary (hr a u ha b w hb) (attempt_ok h).1
  cases op
  case and => exact typed_logical (.inl rfl) l r
  case or => exact typed_logical (.inr rfl) l r
  all_goals exact fun _ _ => hother

end

/-! ### Calls -/

/-- What calls of methods give is described by the types that the methods declare. -/
def KeepsReturns (d : Declarations) (f : Frame) : Prop :=
  ∀ call, f.call? = some call → ∀ id m args v w w', d.methods[id]? = some m →
    call id args w = .ok v w' → m.signature.returns.Describes v

section

variable {f : Frame} {s : State} {line : Nat} {args : List Expr}

theorem typed_callMethod {d : Declarations} (h : KeepsReturns d f) {id : MethodId} {m : Pending}
    (hm : d.methods[id]? = some m) : Typed f s (.callMethod line id args, m.signature.returns) := by
  intro v t heval
  obtain ⟨vs, u, -, hcall⟩ := bind_ok heval
  cases hc : f.call? with
  | none =>
    rw [hc] at hcall
    cases hcall
  | some call =>
    rw [hc] at hcall
    obtain ⟨w, hrun, -⟩ := inWorld_ok hcall
    exact h call hc id m vs v u.world w hm hrun

/-- A call of the log gives null, and nothing else that a slot holds can be called. -/
theorem typed_callSlot (slot : Slot) (name : String) :
    Typed f s (.callSlot line slot name args, .void) := by
  intro v t heval
  obtain ⟨vs, u, -, heval⟩ := bind_ok heval
  obtain ⟨callee, w, -, hcall⟩ := bind_ok heval
  cases callee with
  | log =>
    dsimp only at hcall
    unfold callLog at hcall
    split at hcall
    · cases hcall
      exact .own .null
    · cases hcall
  | _ => cases hcall

theorem typed_callDocument (m : DocumentMethod) (receiver : Expr) :
    Typed f s (.callDocument line m receiver args, .void) := by
  intro v t heval
  obtain ⟨r, u, -, heval⟩ := bind_ok heval
  obtain ⟨vs, w, -, hcall⟩ := bind_ok heval
  split at hcall
  · obtain ⟨block, z, -, hdone⟩ := bind_ok hcall
    cases hdone
    exact .own .null
  · cases hcall

end

/-! ### Expressions -/

section

variable {S : Surroundings} {f : Frame} (hcalls : KeepsReturns S.declared f)

include hcalls

/-- **Static types of expressions**: where the types of the visible locals describe their values, the type
of an expression describes what it gives. -/
theorem typed_expr : ∀ (e : Syntax.Expr) {σ : Scope} {s : State}, σ.Describes s.locals →
    Typed f s (expr S e σ).1
  | .literal _ l, _, _, _ => typed_const (Program.describes_literal l)
  | .ident span name, σ, s, h => by
    unfold expr
    rw [bind_apply]
    cases hfound : (lookup name σ).1 with
    | none => exact typed_any _
    | some p =>
      intro v t heval
      exact h name p.1 p.2 v hfound (load_ok heval).1
  | .list _ _, _, _, _ => typed_list _
  | .unary _ op e, _, _, h => (typed_expr e h).unary op
  | .binary _ op l r, σ, s, h => by
    -- Neither resolving nor evaluating the left side changes what is known of the locals.
    refine (typed_expr l h).binary op fun a t ha => typed_expr r ?_
    rw [keepsSlots_eval f _ s a t ha]
    have hspans := Syntax.Expr.spans_of_forall (P := fun _ => True) (fun _ => trivial) l
    exact preserves_expr S (Program.usesKeep_describes _) l hspans σ h
  | .index _ _ _, _, _, _ => typed_any _
  | .call span callee args, σ, s, _ => by
    have hnull : Typed f s (unresolved (S.lines.line span.start)) := typed_any _
    have hmakes : Makes (Typed f s) (expr S (.call span callee args)) := by
      refine .behind fun args => .behind fun found => ?_
      split
      · exact makes_localCall hnull (fun slot => typed_callSlot slot _) (fun _ => typed_any _) _ _
      · exact makes_plainCall hnull S (fun _ _ hm => typed_callMethod hcalls hm)
          (fun _ => typed_any _) callee
    exact hmakes σ
  | .method span receiver method args, σ, s, _ => by
    have hnull : Typed f s (unresolved (S.lines.line span.start)) := typed_any _
    have hmakes : Makes (Typed f s) (expr S (.method span receiver method args)) := by
      refine .behind fun found => ?_
      split
      · exact .behind fun args =>
          makes_qualifiedCall hnull S (fun _ _ hm => typed_callMethod hcalls hm) _ _ method
      · exact .behind fun r => .behind fun args =>
          makes_methodCall hnull S (fun m => typed_callDocument m r.1) (fun _ _ => typed_any _)
            (fun _ => typed_any _) r.2
    exact hmakes σ

end

/-- **Static types of operators are sound.**  An operator on operands of known types has the type of its
value, and where less is known of an operand, this type or `any`.  The same holds of `&&` and `||` in a
run, of a unary expression that is resolved, and so of every expression, as far as the locals and the calls
of methods have their types. -/
theorem operators_sound :
    (∀ (op : Syntax.BinaryOp) (a b v : Value), Value.binary op a b = .ok v →
      binaryType op a.type b.type = v.type ∧
      ∀ ty ty' : Ty, ty.Describes a → ty'.Describes b → (binaryType op ty ty').Describes v) ∧
    (∀ (op : Syntax.UnaryOp) (a v : Value), Value.unary op a = .ok v →
      unaryType op a.type = v.type ∧ ∀ ty : Ty, ty.Describes a → (unaryType op ty).Describes v) ∧
    (∀ (f : Frame) (s : State) (line : Nat) (op : Syntax.BinaryOp) (l r : Expr) (ty ty' : Ty),
      Typed f s (l, ty) → (∀ a t, eval f l s = .ok a t → Typed f t (r, ty')) →
      Typed f s (.binary line op l r, binaryType op ty ty')) ∧
    (∀ (f : Frame) (s : State) (S : Surroundings) (σ : Scope) (span : Span) (op : Syntax.UnaryOp)
      (e : Syntax.Expr), Typed f s (expr S e σ).1 → Typed f s (expr S (.unary span op e) σ).1) ∧
    ∀ (f : Frame) (s : State) (S : Surroundings) (σ : Scope) (e : Syntax.Expr),
      KeepsReturns S.declared f → σ.Describes s.locals → Typed f s (expr S e σ).1 := by
  refine ⟨fun op a b v hv => ⟨(Value.type_binary op a b v hv).symm, fun _ _ ha hb => ha.binary hb hv⟩,
    fun op a v hv => ⟨(Value.type_unary op a v hv).symm, fun _ ha => ha.unary hv⟩, ?_, ?_, ?_⟩
  · intro f s line op l r ty ty' hl hr
    exact hl.binary op hr
  · intro f s S σ span op e he
    exact he.unary op
  · intro f s S σ e hcalls hlocals
    exact typed_expr hcalls e hlocals

/-- The product of a local and a call of a method, with a text behind it. -/
theorem operators_sound_product :
    let int (n : Int64) : Expr := .const 1 (.int n)
    let size : Pending := ⟨⟨"size", true, [], .int⟩, 0, ⟨⟨0, 0⟩, true, ⟨"size", ⟨0, 0⟩⟩, [], none, []⟩⟩
    let S : Surroundings := ⟨⟨Catalog.standard.libraries⟩, ⟨[0]⟩, { methods := [size] }, 0⟩
    let f : Frame := ⟨"T.fill", 0, some fun _ _ => pure (.int 2)⟩
    let σ : Scope := { locals := [⟨"n", .int, ⟨0, 0⟩, false, false⟩], visible := [("n", 0)] }
    let s : State := ⟨#[some (.int 5)], {}⟩
    let call : Syntax.Expr := .call ⟨0, 0⟩ ⟨"size", ⟨0, 0⟩⟩ []
    let e : Syntax.Expr := .binary ⟨0, 0⟩ .add
      (.binary ⟨0, 0⟩ .mul (.ident ⟨0, 0⟩ "n") (.unary ⟨0, 0⟩ .negate call))
      (.literal ⟨0, 0⟩ (.string "!"))
    (Value.binary .add (.int 1) (.str "a") = .ok (.str "1a") ∧ Ty.any.Describes (.int 1) ∧
      Ty.string.Describes (.str "a") ∧ (binaryType .add .any .string).Describes (.str "1a")) ∧
    (Value.unary .negate (.int 5) = .ok (.int (-5)) ∧ Ty.int.Describes (.int 5) ∧
      (unaryType .negate .int).Describes (.int (-5))) ∧
    (eval f (.binary 1 .and (.const 1 (.bool false)) (int 7)) s = .ok (.bool false) s ∧
      Typed f s (.binary 1 .and (.const 1 (.bool false)) (int 7), binaryType .and .bool .int)) ∧
    (eval f (expr S (.unary ⟨0, 0⟩ .negate call) σ).1.1 s = .ok (.int (-2)) s ∧
      Typed f s (expr S (.unary ⟨0, 0⟩ .negate call) σ).1) ∧
    KeepsReturns S.declared f ∧ σ.Describes s.locals ∧
      eval f (expr S e σ).1.1 s = .ok (.str "-10!") s ∧ (expr S e σ).1.2 = .string ∧
      Typed f s (expr S e σ).1 := by
  intro int size S f σ s call e
  obtain ⟨hbinary, hunary, hrun, hresolved, hexpr⟩ := operators_sound
  have hcalls : KeepsReturns S.declared f := by
    rintro c ⟨⟩ id m args v w w' hm ⟨⟩
    obtain rfl := List.mem_singleton.mp (List.mem_of_getElem? hm)
    exact .own (.int 2)
  have hlocals : σ.Describes s.locals := by
    intro name slot ty v hlookup hv
    by_cases hname : name = "n"
    · subst hname
      cases hlookup
      cases hv
      exact .own (.int 5)
    · rw [lookup_eq, List.lookup_cons, beq_eq_false_iff_ne.mpr hname] at hlookup
      cases hlookup
  have hcall : Typed f s (expr S call σ).1 := hexpr f s S σ call hcalls hlocals
  refine ⟨⟨by rfl, .any _, .own (.str "a"), ?_⟩, ⟨by rfl, .own (.int 5), ?_⟩, ⟨by rfl, ?_⟩,
    ⟨by rfl, ?_⟩, hcalls, hlocals, by rfl, by rfl, hexpr f s S σ e hcalls hlocals⟩
  · exact (hbinary .add (.int 1) (.str "a") _ rfl).2 .any .string (.any _) (.own (.str "a"))
  · exact (hunary .negate (.int 5) _ rfl).2 .int (.own (.int 5))
  · exact hrun f s 1 .and _ _ .bool .int (typed_const (.own (.bool false)))
      fun _ _ _ => typed_const (.own (.int 7))
  · exact hresolved f s S σ ⟨0, 0⟩ .negate call hcall

end Machine

end ReportTemplate
