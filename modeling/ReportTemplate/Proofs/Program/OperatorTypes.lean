import ReportTemplate.Proofs.Library.Limits
import ReportTemplate.Proofs.Program.StaticTypes

/-!
# ReportTemplate.Proofs.Program.OperatorTypes — the static type of an operator is the type of its value

Static types follow a table of their own, which asks in another order than the operators do.  Where the
types of the operands are known, the table gives the type of the value; where less is known of an operand,
it gives this type or `any`.  So no static type of an operator names a type that its value does not have.
-/

namespace ReportTemplate

open Syntax (UnaryOp BinaryOp)
open Program.Resolve (unaryType binaryType)

/-! ### Types of values -/

/-- The type of a value; null is what a call without a result gives. -/
def Value.type : Value → Ty
  | null => .void
  | bool _ => .bool
  | int _ => .int
  | float _ => .float
  | str _ => .string
  | list _ => .list
  | document => .document
  | log => .logCallback

/-- A static type says nothing of a value, or names its type. -/
def Ty.Describes (t : Ty) (v : Value) : Prop := t = .any ∨ t = v.type

theorem Ty.Describes.any (v : Value) : Ty.any.Describes v := .inl rfl

theorem Ty.Describes.own (v : Value) : v.type.Describes v := .inr rfl

namespace Value

/-! ### Operands of known types -/

theorem type_exact (n : Int) : Gives (·.type = .int) (exact n) := by
  unfold exact
  split
  · exact .ok rfl
  · exact .refused _

theorem type_unary (op : UnaryOp) (a : Value) : Gives (·.type = unaryType op a.type) (unary op a) := by
  unfold unary
  split
  · exact type_exact _
  · exact .ok rfl
  · exact .refused _
  · exact .ok rfl
  · exact .refused _

theorem type_onInts (op : BinaryOp) (n m : Int64) :
    Gives (·.type = binaryType op .int .int) (onInts op n m) := by
  cases op with
  | add | sub | mul => exact type_exact _
  | div =>
    dsimp only [onInts]
    split
    · exact .refused _
    · exact type_exact _
  | rem =>
    dsimp only [onInts]
    split
    · exact .refused _
    · split
      · exact type_exact _
      · exact .refused _
  | _ => exact .ok rfl

theorem type_onFloats (op : BinaryOp) (x y : Number.Binary64) :
    Gives (·.type = binaryType op .float .float) (onFloats op x y) := by
  cases op with
  | add | sub | mul | div | rem => exact .ok rfl
  | _ =>
    dsimp only [onFloats]
    split
    · exact .ok rfl
    · exact .refused _

theorem number_of_toBinary64? {a : Value} {x : Number.Binary64} (h : a.toBinary64? = some x) :
    (∃ n, a = .int n) ∨ ∃ y, a = .float y := by
  cases a with
  | int n => exact .inl ⟨n, rfl⟩
  | float y => exact .inr ⟨y, rfl⟩
  | _ => cases h

/-- Where one of two numbers is a float, the other one counts as a float too. -/
theorem binaryType_mixed (op : BinaryOp) {a b : Value} {x y : Number.Binary64}
    (ha : a.toBinary64? = some x) (hb : b.toBinary64? = some y)
    (hints : ∀ n m, a = .int n → b = .int m → False) :
    binaryType op a.type b.type = binaryType op .float .float := by
  rcases number_of_toBinary64? ha with ⟨n, rfl⟩ | ⟨_, rfl⟩ <;>
    rcases number_of_toBinary64? hb with ⟨m, rfl⟩ | ⟨_, rfl⟩
  · exact (hints n m rfl rfl).elim
  all_goals cases op <;> rfl

theorem type_onNumbers (op : BinaryOp) (a b : Value) :
    Gives (·.type = binaryType op a.type b.type) (onNumbers op a b) := by
  unfold onNumbers
  split
  next n m => exact type_onInts op n m
  next a b hints =>
    split
    next x y hx hy =>
      rw [binaryType_mixed op hx hy hints]
      exact type_onFloats op x y
    next => exact .refused _

theorem type_joinTexts (a b : Value) : Gives (·.type = .string) (joinTexts a b) := by
  unfold joinTexts
  dsimp only
  split
  · exact .refused _
  · exact .ok rfl

theorem type_joinLists (as bs : List Value) : Gives (·.type = .list) (joinLists as bs) := by
  unfold joinLists
  split
  · exact .refused _
  · exact .ok rfl

theorem binaryType_add_string (t : Ty) : binaryType .add t .string = .string := if_pos (.inr rfl)

theorem type_plus (a b : Value) : Gives (·.type = binaryType .add a.type b.type) (plus a b) := by
  unfold plus
  split
  next => exact type_joinTexts _ _
  next =>
    show Gives (fun v : Value => v.type = binaryType .add _ .string) _
    rw [binaryType_add_string]
    exact type_joinTexts _ _
  next => exact type_joinLists _ _
  next => exact type_onNumbers .add a b

theorem type_order {op : BinaryOp} (h : ∀ t u, binaryType op t u = .bool) (a b : Value) :
    Gives (·.type = binaryType op a.type b.type) (order op a b) := by
  unfold order
  split
  next =>
    rw [h]
    exact .ok rfl
  next => exact type_onNumbers op a b

theorem type_binary (op : BinaryOp) (a b : Value) :
    Gives (·.type = binaryType op a.type b.type) (binary op a b) := by
  cases op with
  | equal | notEqual => exact .ok rfl
  | add => exact type_plus a b
  | less | lessEqual | greater | greaterEqual => exact type_order (fun _ _ => rfl) a b
  | _ => exact type_onNumbers _ a b

end Value

/-! ### Operands of which less is known -/

section

variable {t u : Ty} {a b : Value}

theorem unaryType_of_describes (op : UnaryOp) (h : t.Describes a) :
    unaryType op t = .any ∨ unaryType op t = unaryType op a.type := by
  rcases h with rfl | rfl
  · cases op with
    | negate => exact .inl rfl
    | not => exact .inr rfl
  · exact .inr rfl

theorem binaryType_of_describes (op : BinaryOp) (ha : t.Describes a) (hb : u.Describes b) :
    binaryType op t u = .any ∨ binaryType op t u = binaryType op a.type b.type := by
  have hleft : binaryType op t u = .any ∨ binaryType op t u = binaryType op a.type u := by
    rcases ha with rfl | rfl
    · exact (Program.binaryType_any_left op u).imp_right fun h => h a.type
    · exact .inr rfl
  have hright : binaryType op a.type u = .any ∨ binaryType op a.type u = binaryType op a.type b.type := by
    rcases hb with rfl | rfl
    · exact (Program.binaryType_any_right op a.type).imp_right fun h => h b.type
    · exact .inr rfl
  exact hleft.elim .inl fun h => h ▸ hright

theorem Ty.Describes.unary {op : UnaryOp} {v : Value} (h : t.Describes a)
    (hv : Value.unary op a = .ok v) : (unaryType op t).Describes v := by
  have htype := Value.type_unary op a v hv
  rw [Ty.Describes, htype]
  exact unaryType_of_describes op h

theorem Ty.Describes.binary {op : BinaryOp} {v : Value} (ha : t.Describes a) (hb : u.Describes b)
    (hv : Value.binary op a b = .ok v) : (binaryType op t u).Describes v := by
  have htype := Value.type_binary op a b v hv
  rw [Ty.Describes, htype]
  exact binaryType_of_describes op ha hb

end

end ReportTemplate
