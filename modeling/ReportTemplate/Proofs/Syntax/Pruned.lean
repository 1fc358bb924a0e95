import ReportTemplate.Proofs.Syntax.Occurrences

/-!
# ReportTemplate.Proofs.Syntax.Pruned — sources with nothing behind a `return`

In a pruned source every block ends with its first `return`, if it has one.  The blocks of a method are its
body and the bodies inside, those behind a `return` as well.
-/

namespace ReportTemplate.Syntax

/-- A `return`, with a value or without. -/
def Stmt.isResult : Stmt → Bool
  | .result _ _ => true
  | _ => false

/-- The first statement of a block behind its first `return`. -/
def Stmt.behindReturn? : List Stmt → Option Stmt
  | [] => none
  | s :: ss => if s.isResult then ss.head? else Stmt.behindReturn? ss

/-! ### Blocks -/

mutual

/-- The blocks inside a statement, each in front of those inside it. -/
def Stmt.blocks : Stmt → List (List Stmt)
  | .branch _ branches otherwise => Stmt.armsBlocks branches ++ Stmt.otherwiseBlocks otherwise
  | .loop _ _ body | .forEach _ _ _ body | .forRange _ _ _ _ body => body :: Stmt.innerBlocks body
  | .declare _ _ _ | .assign _ _ _ | .expr _ _ | .result _ _ => []

/-- The blocks inside the statements of a block. -/
def Stmt.innerBlocks : List Stmt → List (List Stmt)
  | [] => []
  | s :: ss => s.blocks ++ Stmt.innerBlocks ss

def Stmt.armsBlocks : List (Expr × List Stmt) → List (List Stmt)
  | [] => []
  | (_, body) :: rest => body :: Stmt.innerBlocks body ++ Stmt.armsBlocks rest

def Stmt.otherwiseBlocks : Option (List Stmt) → List (List Stmt)
  | none => []
  | some body => body :: Stmt.innerBlocks body

end

/-- The body of a method and all blocks inside it. -/
def Method.blocks (m : Method) : List (List Stmt) := m.body :: Stmt.innerBlocks m.body

/-! ### Without what stands behind a `return` -/

mutual

/-- A statement in whose blocks nothing stands behind a `return`. -/
def Stmt.pruned : Stmt → Stmt
  | .branch span branches otherwise =>
    .branch span (Stmt.prunedArms branches) (Stmt.prunedOtherwise otherwise)
  | .loop span condition body => .loop span condition (Stmt.prunedAll body)
  | .forEach span binding items body => .forEach span binding items (Stmt.prunedAll body)
  | .forRange span binding start stop body => .forRange span binding start stop (Stmt.prunedAll body)
  | .declare span name value => .declare span name value
  | .assign span name value => .assign span name value
  | .expr span value => .expr span value
  | .result span value => .result span value

/-- A block up to its first `return`. -/
def Stmt.prunedAll : List Stmt → List Stmt
  | [] => []
  | s :: ss => if s.isResult then [s] else s.pruned :: Stmt.prunedAll ss

def Stmt.prunedArms : List (Expr × List Stmt) → List (Expr × List Stmt)
  | [] => []
  | (condition, body) :: rest => (condition, Stmt.prunedAll body) :: Stmt.prunedArms rest

def Stmt.prunedOtherwise : Option (List Stmt) → Option (List Stmt)
  | none => none
  | some body => some (Stmt.prunedAll body)

end

def Method.pruned (m : Method) : Method := { m with body := Stmt.prunedAll m.body }

mutual

def Class.pruned : Class → Class
  | .mk span name members => .mk span name (Class.prunedAll members)

def Class.prunedAll : List (Method ⊕ Class) → List (Method ⊕ Class)
  | [] => []
  | .inl m :: members => .inl m.pruned :: Class.prunedAll members
  | .inr c :: members => .inr c.pruned :: Class.prunedAll members

end

/-- A source without the statements that stand behind the first `return` of their block. -/
def File.pruned (f : File) : File := ⟨f.classes.map Class.pruned⟩

theorem Class.name_pruned (c : Class) : c.pruned.name = c.name := by
  cases c
  rfl

theorem Class.own_prunedAll (members : List (Method ⊕ Class)) :
    (Class.prunedAll members).filterMap Sum.getLeft? =
      (members.filterMap Sum.getLeft?).map Method.pruned := by
  induction members with
  | nil => rfl
  | cons x members ih =>
    cases x with
    | inl m => exact congrArg (m.pruned :: ·) ih
    | inr c => exact ih

end ReportTemplate.Syntax
