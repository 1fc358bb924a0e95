import Mathlib.Data.List.Basic
import ReportTemplate.EntryPoint

/-!
# ReportTemplate.Proofs.Machine.Renumbered — methods under other numbers

Calls name methods by their numbers.  When the methods of a program get other numbers, and its calls with
them, every run is the same, and so is the entry point.
-/

namespace ReportTemplate

namespace Program

/-! ### Other numbers -/

section

variable (σ : MethodId → MethodId)

mutual

/-- An expression that calls methods under other numbers. -/
def Expr.renumber : Expr → Expr
  | .const line v => .const line v
  | .slot line i => .slot line i
  | .list line items => .list line (Expr.renumberAll items)
  | .unary line op operand => .unary line op operand.renumber
  | .binary line op left right => .binary line op left.renumber right.renumber
  | .index line target place => .index line target.renumber place.renumber
  | .callMethod line id args => .callMethod line (σ id) (Expr.renumberAll args)
  | .callFunction line g args => .callFunction line g (Expr.renumberAll args)
  | .callSlot line i name args => .callSlot line i name (Expr.renumberAll args)
  | .callDocument line m receiver args =>
    .callDocument line m receiver.renumber (Expr.renumberAll args)
  | .callDynamic line name receiver args document function =>
    .callDynamic line name receiver.renumber (Expr.renumberAll args) document function

def Expr.renumberAll : List Expr → List Expr
  | [] => []
  | e :: es => e.renumber :: Expr.renumberAll es

end

mutual

def Stmt.renumber : Stmt → Stmt
  | .store line slot value => .store line slot (value.renumber σ)
  | .expr line value => .expr line (value.renumber σ)
  | .branch line branches otherwise =>
    .branch line (Stmt.renumberArms branches) (Stmt.renumberOtherwise otherwise)
  | .loop line cond body => .loop line (cond.renumber σ) (Stmt.renumberAll body)
  | .forEach line slot items body => .forEach line slot (items.renumber σ) (Stmt.renumberAll body)
  | .forRange line slot start stop body =>
    .forRange line slot (start.renumber σ) (stop.renumber σ) (Stmt.renumberAll body)
  | .result line none => .result line none
  | .result line (some value) => .result line (some (value.renumber σ))

def Stmt.renumberAll : List Stmt → List Stmt
  | [] => []
  | s :: ss => s.renumber :: Stmt.renumberAll ss

def Stmt.renumberArms : List (Expr × List Stmt) → List (Expr × List Stmt)
  | [] => []
  | (cond, body) :: rest => (cond.renumber σ, Stmt.renumberAll body) :: Stmt.renumberArms rest

def Stmt.renumberOtherwise : Option (List Stmt) → Option (List Stmt)
  | none => none
  | some body => some (Stmt.renumberAll body)

end

def Method.renumber (m : Method) : Method := { m with body := Stmt.renumberAll σ m.body }

theorem Expr.line_renumber (e : Expr) : (e.renumber σ).line = e.line := by
  cases e <;> rfl

theorem Expr.length_renumberAll (es : List Expr) : (Expr.renumberAll σ es).length = es.length := by
  induction es with
  | nil => rfl
  | cons e es ih => simp [Expr.renumberAll, ih]

/-- The program `q` has the classes of `p`, and its methods under other numbers.  A class lists the same
numbers in both. -/
structure Renumbered (p q : Program) : Prop where
  types : q.types = p.types
  methods : ∀ id : MethodId, q.methods[σ id]? = (p.methods[id]?).map (Method.renumber σ)
  listed : ∀ t ∈ p.types, (t.methods.map σ).Perm t.methods

end

end Program

namespace Machine

open Program (Expr Stmt MethodId)

/-! ### Runs -/

section

variable (f : Frame) (σ : MethodId → MethodId)

/-- A frame whose calls go to methods under other numbers. -/
def Frame.renumber : Frame := { f with call? := f.call?.map fun call id => call (σ id) }

mutual

theorem eval_renumber : ∀ e : Expr, eval f (e.renumber σ) = eval (f.renumber σ) e
  | .const _ _ => rfl
  | .slot _ _ => rfl
  | .list _ items => by
    rw [Expr.renumber, eval, eval, evalAll_renumber items]
  | .unary _ _ operand => by
    rw [Expr.renumber, eval, eval, eval_renumber operand]
    rfl
  | .binary _ op left right => by
    have hleft := eval_renumber left
    have hright := eval_renumber right
    cases op <;> (simp only [Expr.renumber, eval, hleft, hright, Expr.line_renumber]; rfl)
  | .index _ target place => by
    rw [Expr.renumber, eval, eval, eval_renumber target, eval_renumber place]
    rfl
  | .callMethod line id args => by
    rw [Expr.renumber, eval, eval, evalAll_renumber args]
    refine bind_congr fun vs => ?_
    cases hcall : f.call? with
    | none => simp [Frame.renumber, hcall, fail]
    | some call => simp [Frame.renumber, hcall]
  | .callFunction _ _ args => by
    rw [Expr.renumber, eval, eval, evalAll_renumber args]
    rfl
  | .callSlot _ _ _ args => by
    rw [Expr.renumber, eval, eval, evalAll_renumber args]
    rfl
  | .callDocument _ _ receiver args => by
    rw [Expr.renumber, eval, eval, eval_renumber receiver, evalAll_renumber args]
    rfl
  | .callDynamic _ _ receiver args _ _ => by
    rw [Expr.renumber, eval, eval, eval_renumber receiver, evalAll_renumber args]
    rfl

theorem evalAll_renumber : ∀ es : List Expr,
    evalAll f (Expr.renumberAll σ es) = evalAll (f.renumber σ) es
  | [] => rfl
  | e :: es => by
    rw [Expr.renumberAll, evalAll, evalAll, eval_renumber e, evalAll_renumber es]

end

theorem condition_renumber (e : Expr) :
    condition f (e.renumber σ) = condition (f.renumber σ) e := by
  unfold condition
  rw [eval_renumber, Expr.line_renumber]
  rfl

mutual

theorem exec_renumber : ∀ s : Stmt, exec f (s.renumber σ) = exec (f.renumber σ) s
  | .store _ _ value => by
    rw [Stmt.renumber, exec, exec, eval_renumber f σ value]
  | .expr _ value => by
    rw [Stmt.renumber, exec, exec, eval_renumber f σ value]
  | .branch _ branches otherwise => by
    rw [Stmt.renumber, exec, exec, execOtherwise_renumber otherwise, execArms_renumber branches]
  | .loop _ cond body => by
    rw [Stmt.renumber, exec, exec, condition_renumber f σ cond, execAll_renumber body]
    rfl
  | .forEach _ _ items body => by
    rw [Stmt.renumber, exec, exec, eval_renumber f σ items, execAll_renumber body]
    rfl
  | .forRange _ _ start stop body => by
    rw [Stmt.renumber, exec, exec, eval_renumber f σ start, eval_renumber f σ stop,
      execAll_renumber body, Expr.line_renumber, Expr.line_renumber]
    rfl
  | .result _ none => rfl
  | .result _ (some value) => by
    rw [Stmt.renumber, exec, exec, eval_renumber f σ value]

theorem execAll_renumber : ∀ ss : List Stmt,
    execAll f (Stmt.renumberAll σ ss) = execAll (f.renumber σ) ss
  | [] => rfl
  | s :: ss => by
    rw [Stmt.renumberAll, execAll, execAll, exec_renumber s, execAll_renumber ss]

theorem execArms_renumber : ∀ (bs : List (Expr × List Stmt)) (otherwise : Exec Flow),
    execArms f (Stmt.renumberArms σ bs) otherwise = execArms (f.renumber σ) bs otherwise
  | [], _ => rfl
  | (cond, body) :: rest, otherwise => by
    rw [Stmt.renumberArms, execArms, execArms, condition_renumber f σ cond, execAll_renumber body,
      execArms_renumber rest]

theorem execOtherwise_renumber : ∀ o : Option (List Stmt),
    execOtherwise f (Stmt.renumberOtherwise σ o) = execOtherwise (f.renumber σ) o
  | none => rfl
  | some body => by
    rw [Stmt.renumberOtherwise, execOtherwise, execOtherwise, execAll_renumber body]

end

end

section

variable {σ : MethodId → MethodId} {p q : Program} (h : p.Renumbered σ q)

include h

theorem qualifiedName_renumber (m : Program.Method) :
    q.qualifiedName (m.renumber σ) = p.qualifiedName m := by
  unfold Program.qualifiedName
  rw [h.types]
  rfl

/-- A method under its other number, where the calls that it makes go to methods under theirs. -/
theorem run_renumber (steps : Nat) (call? : Option Call) (id : MethodId) :
    run q steps call? (σ id) = run p steps (call?.map fun call id => call (σ id)) id := by
  funext args world
  unfold run
  rw [h.methods]
  cases p.methods[id]? with
  | none => rfl
  | some m =>
    have hbody := execAll_renumber ⟨p.qualifiedName m, steps, call?⟩ σ m.body
    simp only [Option.map_some, qualifiedName_renumber h]
    simp only [Program.Method.renumber, hbody]
    rfl

/-- **Numbers of methods** do not show in a run. -/
theorem invoke_renumber (steps depth : Nat) (id : MethodId) :
    invoke q steps depth (σ id) = invoke p steps depth id := by
  induction depth generalizing id with
  | zero => exact run_renumber h steps none id
  | succ depth ih =>
    unfold invoke
    rw [run_renumber h, Option.map_some]
    congr 3
    funext id
    exact ih id

end

end Machine

/-! ### Entry points -/

/-- Two programs have no entry point for the same reason, but for the order of the candidates. -/
inductive EntryPointError.Alike : EntryPointError → EntryPointError → Prop
  | same (e : EntryPointError) : Alike e e
  | candidates (type : String) {cs ds : List String} (perm : cs.Perm ds) :
      Alike (.severalMethods type cs) (.severalMethods type ds)

namespace EntryPoint

open Program (MethodId)

section

variable (σ : MethodId → MethodId) (q : Program)

/-- The entry point in a program with other numbers. -/
def renumber (e : EntryPoint) : EntryPoint := ⟨q, σ e.id, e.method.renumber σ, e.takesDirectory⟩

end

section

variable {σ : MethodId → MethodId} {p q : Program} (h : p.Renumbered σ q)

include h

theorem topLevel_renumber : topLevel q = topLevel p := by
  unfold topLevel
  rw [h.types]

theorem candidates_renumber {t : Program.TypeInfo} (ht : t ∈ p.types) :
    ((candidates p t).map (renumber σ q)).Perm (candidates q t) := by
  unfold candidates
  rw [List.map_filterMap]
  refine .trans (.of_eq ?_) ((h.listed t ht).filterMap _)
  rw [List.filterMap_map]
  refine List.filterMap_congr fun id _ => ?_
  simp only [Function.comp_apply, h.methods]
  cases p.methods[id]? with
  | none => rfl
  | some m => cases hshape : shape? m.signature <;> simp [renumber, Program.Method.renumber, hshape]

/-- A program with other numbers has the same entry point, or none for the same reason. -/
theorem ofProgram_renumber :
    (∀ e, ofProgram p = .ok e → ofProgram q = .ok (e.renumber σ q)) ∧
      ∀ x, ofProgram p = .error x → ∃ y, ofProgram q = .error y ∧ x.Alike y := by
  unfold ofProgram
  rw [topLevel_renumber h]
  cases htop : topLevel p with
  | error x => exact ⟨nofun, fun y hy => ⟨x, rfl, Except.error.inj hy ▸ .same x⟩⟩
  | ok t =>
    have ht : t ∈ p.types := by
      unfold topLevel at htop
      split at htop
      · cases htop
      next t' hfilter =>
        obtain rfl := Except.ok.inj htop
        exact (List.mem_filter.mp (hfilter ▸ List.mem_cons_self)).1
      · cases htop
    have hperm := candidates_renumber h ht
    dsimp only
    rcases hp : candidates p t with _ | ⟨e, _ | ⟨e', es⟩⟩
    · rw [hp] at hperm
      rw [List.nil_perm.mp hperm]
      exact ⟨nofun, fun x hx => ⟨_, rfl, Except.error.inj hx ▸ .same _⟩⟩
    · rw [hp] at hperm
      rw [← List.singleton_perm.mp hperm]
      refine ⟨fun x hx => ?_, nofun⟩
      rw [← Except.ok.inj hx]
    · rw [hp] at hperm
      refine ⟨nofun, fun x hx => ?_⟩
      have htexts := hperm.map fun e => e.method.signature.text
      rw [← Except.error.inj hx]
      rcases hq : candidates q t with _ | ⟨d, _ | ⟨d', ds⟩⟩
      · simpa [hq] using hperm.length_eq
      · simpa [hq] using hperm.length_eq
      · rw [hq, List.map_map] at htexts
        exact ⟨_, rfl, .candidates _ htexts⟩

theorem invoke_renumber {e : EntryPoint} (he : e.program = p) (steps : Nat) (directory : String)
    (world : Machine.World) :
    (e.renumber σ q).invoke steps directory world = e.invoke steps directory world := by
  show Machine.invoke q steps _ (σ e.id) (e.args directory) world = _
  rw [Machine.invoke_renumber h, EntryPoint.invoke, he]

end

end EntryPoint

end ReportTemplate
