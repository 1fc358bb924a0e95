import ReportTemplate.Syntax

/-!
# ReportTemplate.Proofs.Syntax.Calls — the calls and the methods of a syntax tree

`Calls P` says that every call by a name in a tree has the property `P`, which is one of its name and
its arguments.
-/

namespace ReportTemplate.Syntax

/-! ### Calls of a tree -/

section

variable (P : Ident → List Expr → Prop)

mutual

/-- Every call by a name in an expression has a property. -/
def Expr.Calls : Expr → Prop
  | .literal _ _ | .ident _ _ => True
  | .list _ items => Expr.AllCalls items
  | .unary _ _ operand => operand.Calls
  | .binary _ _ left right => left.Calls ∧ right.Calls
  | .call _ callee args => P callee args ∧ Expr.AllCalls args
  | .method _ receiver _ args => receiver.Calls ∧ Expr.AllCalls args
  | .index _ target place => target.Calls ∧ place.Calls

def Expr.AllCalls : List Expr → Prop
  | [] => True
  | e :: es => e.Calls ∧ Expr.AllCalls es

end

mutual

/-- Every call by a name in a statement has a property. -/
def Stmt.Calls : Stmt → Prop
  | .declare _ _ value | .assign _ _ value | .expr _ value => value.Calls P
  | .branch _ branches otherwise => Stmt.ArmsCalls branches ∧ Stmt.OtherwiseCalls otherwise
  | .loop _ cond body => cond.Calls P ∧ Stmt.AllCalls body
  | .forEach _ _ items body => items.Calls P ∧ Stmt.AllCalls body
  | .forRange _ _ start stop body => start.Calls P ∧ stop.Calls P ∧ Stmt.AllCalls body
  | .result _ none => True
  | .result _ (some value) => value.Calls P

def Stmt.AllCalls : List Stmt → Prop
  | [] => True
  | s :: ss => s.Calls ∧ Stmt.AllCalls ss

def Stmt.ArmsCalls : List (Expr × List Stmt) → Prop
  | [] => True
  | (cond, body) :: rest => cond.Calls P ∧ Stmt.AllCalls body ∧ Stmt.ArmsCalls rest

def Stmt.OtherwiseCalls : Option (List Stmt) → Prop
  | none => True
  | some body => Stmt.AllCalls body

end

variable {P}

theorem Expr.allCalls_of_forall {es : List Expr} (h : ∀ e ∈ es, e.Calls P) : Expr.AllCalls P es := by
  induction es with
  | nil => trivial
  | cons e es ih =>
    obtain ⟨he, hes⟩ := List.forall_mem_cons.mp h
    exact ⟨he, ih hes⟩

theorem Stmt.allCalls_of_forall {ss : List Stmt} (h : ∀ s ∈ ss, s.Calls P) : Stmt.AllCalls P ss := by
  induction ss with
  | nil => trivial
  | cons s ss ih =>
    obtain ⟨hs, hss⟩ := List.forall_mem_cons.mp h
    exact ⟨hs, ih hss⟩

theorem Stmt.armsCalls_of_forall {bs : List (Expr × List Stmt)}
    (h : ∀ b ∈ bs, b.1.Calls P ∧ Stmt.AllCalls P b.2) : Stmt.ArmsCalls P bs := by
  induction bs with
  | nil => trivial
  | cons b bs ih =>
    obtain ⟨⟨hcond, hbody⟩, hbs⟩ := List.forall_mem_cons.mp h
    exact ⟨hcond, hbody, ih hbs⟩

end

/-! ### Methods of a source -/

mutual

/-- The methods of a class, then those of the classes inside it. -/
def Class.allMethods : Class → List Method
  | .mk _ _ members => members.filterMap Sum.getLeft? ++ Class.nestedMethods members

def Class.nestedMethods : List (Method ⊕ Class) → List Method
  | [] => []
  | .inl _ :: members => Class.nestedMethods members
  | .inr c :: members => c.allMethods ++ Class.nestedMethods members

end

/-- The methods of a source, class by class. -/
def File.methods (f : File) : List Method := f.classes.flatMap Class.allMethods

theorem Class.mem_nestedMethods {m : Method} {members : List (Method ⊕ Class)}
    (h : m ∈ Class.nestedMethods members) : ∃ c, .inr c ∈ members ∧ m ∈ c.allMethods := by
  induction members with
  | nil => cases h
  | cons x members ih =>
    cases x with
    | inl _ =>
      obtain ⟨c, hc, hm⟩ := ih h
      exact ⟨c, List.mem_cons_of_mem _ hc, hm⟩
    | inr c =>
      rcases List.mem_append.mp h with hm | hm
      · exact ⟨c, List.mem_cons_self, hm⟩
      · obtain ⟨c', hc', hm⟩ := ih hm
        exact ⟨c', List.mem_cons_of_mem _ hc', hm⟩

end ReportTemplate.Syntax
