import ReportTemplate.Library.Standard
import ReportTemplate.Proofs.Scoped.Simulation

/-!
# ReportTemplate.Proofs.Scoped.Meaning — a program means what its syntax tree means

Calls of the methods of a program that resolved without an error have the results, the log and the
document that the interpreter of named scopes gives them.
-/

namespace ReportTemplate.Scoped

open Machine (Halt)
open Program (Declarations Pending MethodId Method Clean declarations resolve resolveMethod paramsView)

/-! ### Frames at the start of a call -/

theorem alignedScope_zip {ι α : Type} {C : ι → α → Prop} {is : List ι} {xs : List α}
    (h : List.Forall₂ C is xs) (names : List String) :
    AlignedScope C (names.zip is) (names.zip xs) := by
  induction h generalizing names with
  | nil => cases names <;> exact .nil
  | cons hC _ ih =>
    cases names with
    | nil => exact .nil
    | cons name names => exact .cons ⟨rfl, hC⟩ (ih names)

theorem size_frameOf (size : Nat) (args : List Value) :
    (Machine.frameOf size args).size = max size args.length := by
  unfold Machine.frameOf
  rw [List.size_toArray, List.length_append, List.length_map, List.length_replicate]
  omega

/-- The first slots of a frame hold the arguments. -/
theorem frameOf_args (size : Nat) (args : List Value) :
    List.Forall₂ (fun slot v => (Machine.frameOf size args)[slot]? = some (some v))
      (List.range args.length) args := by
  refine List.forall₂_iff_get.mpr ⟨List.length_range, fun i h₁ h₂ => ?_⟩
  unfold Machine.frameOf
  rw [List.get_eq_getElem, List.getElem_range, List.getElem?_toArray,
    List.getElem?_append_left (by rwa [List.length_map]), List.getElem?_map,
    List.getElem?_eq_getElem h₂]
  rfl

/-- Arguments beyond the parameters have no name. -/
theorem zip_take {α β : Type} : ∀ (names : List α) (xs : List β),
    names.zip (xs.take names.length) = names.zip xs
  | [], _ => rfl
  | _ :: _, [] => rfl
  | name :: names, x :: xs => congrArg ((name, x) :: ·) (zip_take names xs)

theorem parameters_aligned {m : Pending} (hm : m.Faithful) {args : List Value}
    (h : m.signature.params.length ≤ args.length) (size : Nat) :
    Aligned (fun slot v => (Machine.frameOf size args)[slot]? = some (some v))
      (paramsView m).slots (parameters m args) := by
  have hnames : (m.declaration.params.map fun p => p.name.text).length =
      m.signature.params.length := by
    rw [List.length_map, hm.length_params]
  have hargs := List.forall₂_take m.signature.params.length (frameOf_args size args)
  rw [List.take_range, Nat.min_eq_left h] at hargs
  have hscope := alignedScope_zip hargs (m.declaration.params.map fun p => p.name.text)
  rw [← hnames, zip_take, hnames] at hscope
  exact .cons (List.forall₂_reverse_iff.mpr hscope) .nil

/-! ### Calls -/

/-- The result of a call without the calls of the log that the interpreter counts. -/
def forget {α : Type} : EStateM.Result Halt World α → EStateM.Result Halt Machine.World α
  | .ok a w => .ok a w.left
  | .error k w => .error k w.left

theorem SameResult.eq_forget {x : EStateM.Result Halt Machine.World Value}
    {y : EStateM.Result Halt World Value} (h : SameResult x y) : x = forget y := by
  cases h with
  | ok states => rw [states]; rfl
  | error _ states => rw [states]; rfl

/-- A body gives the value that its flow ends with. -/
theorem sameResult_of_body {slots : Scopes Program.Slot} {size : Nat} :
    ∀ {x : EStateM.Result Halt Machine.State Machine.Flow}
      {y : EStateM.Result Halt State Machine.Flow}, Follows (After slots size) SameWorld x y →
      SameResult
        (match x with
          | .ok flow s => .ok flow.value s.world
          | .error k s => .error k s.world)
        (match y with
          | .ok flow s => .ok flow.value s.world
          | .error k s => .error k s.world)
  | _, _, .ok (a := .next) states => .ok states.world
  | _, _, .ok (a := .returned _) states => .ok states
  | _, _, .error sound states => .error sound states

section

variable {refs : ReferenceSet} {lines : LineIndex} {file : Syntax.File}

/-- The template of a source that has been read. -/
def templateOf (refs : ReferenceSet) (lines : LineIndex) (file : Syntax.File) : Template :=
  ⟨refs, lines, declarations refs file⟩

/-- A method on as many arguments as it has parameters, or more. -/
theorem sameResult_run (hclean : Clean (resolve refs lines file).2) (steps : Nat)
    {c : Option Machine.Call} {d : Option Call} (hcalls : SameCalls (declarations refs file) c d)
    {id : MethodId} {m : Pending} (hm : (declarations refs file).methods[id]? = some m)
    {args : List Value} (hargs : m.signature.params.length ≤ args.length) (w : World) :
    SameResult (Machine.run (resolve refs lines file).1 steps c id args w.left)
      (run (templateOf refs lines file) steps d id args w) := by
  obtain ⟨hfaithful, -⟩ := (Program.declarations_clean (Program.clean_declarations hclean)).2 id m hm
  obtain ⟨hgood, v, hbody, hsize⟩ := Program.resolveMethod_clean hfaithful (Program.clean_method hclean hm)
  have hrun : Machine.run (resolve refs lines file).1 steps c id args w.left =
      match Machine.execAll ⟨(templateOf refs lines file).qualifiedName m, steps, c⟩
        (resolveMethod refs lines (declarations refs file) m).1.body
        ⟨Machine.frameOf v.size args, w.left⟩ with
      | .ok flow s => .ok flow.value s.world
      | .error k s => .error k s.world := by
    unfold Machine.run
    rw [Program.getElem?_resolve hm, ← hsize]
    rfl
  have hinterpreter : run (templateOf refs lines file) steps d id args w =
      match inScope (execAll ⟨⟨refs, lines, declarations refs file, m.owner⟩,
        (templateOf refs lines file).qualifiedName m, steps, d⟩ (paramsView m).types.enter
          m.declaration.body) ⟨parameters m args, w⟩ with
      | .ok flow s => .ok flow.value s.world
      | .error k s => .error k s.world := by
    unfold run
    rw [show (templateOf refs lines file).declared.methods[id]? = some m from hm]
    rfl
  have hframe : SameFrame ⟨(templateOf refs lines file).qualifiedName m, steps, c⟩
      ⟨⟨refs, lines, declarations refs file, m.owner⟩,
        (templateOf refs lines file).qualifiedName m, steps, d⟩ := ⟨rfl, rfl, hcalls⟩
  have hbodies := simulates_inScope hbody.extends.1.leave_slots_eq
    (simulates_execAll hframe m.declaration.body hbody hgood.enter (Nat.le_max_left _ args.length))
  have hstart : Sim (paramsView m).slots (max v.size args.length)
      ⟨Machine.frameOf v.size args, w.left⟩ ⟨parameters m args, w⟩ :=
    ⟨rfl, size_frameOf v.size args, parameters_aligned hfaithful hargs v.size⟩
  rw [hrun, hinterpreter]
  exact sameResult_of_body (hbodies _ _ hstart)

theorem sameCall_run (hclean : Clean (resolve refs lines file).2) (steps : Nat)
    {c : Option Machine.Call} {d : Option Call} (hcalls : SameCalls (declarations refs file) c d) :
    SameCall (declarations refs file) (Machine.run (resolve refs lines file).1 steps c)
      (run (templateOf refs lines file) steps d) :=
  fun _ _ _ w hm hargs => sameResult_run hclean steps hcalls hm (Nat.le_of_eq hargs.symm) w

theorem sameCall_invoke (hclean : Clean (resolve refs lines file).2) (steps : Nat) :
    ∀ depth, SameCall (declarations refs file)
      (Machine.invoke (resolve refs lines file).1 steps depth)
      (invoke (templateOf refs lines file) steps depth)
  | 0 => sameCall_run hclean steps .none
  | depth + 1 => sameCall_run hclean steps (.some (sameCall_invoke hclean steps depth))

/-- The same with the calls that the machine makes. -/
theorem sameResult_invoke (hclean : Clean (resolve refs lines file).2) (steps : Nat) :
    ∀ (depth : Nat) {id : MethodId} {m : Pending},
      (declarations refs file).methods[id]? = some m → ∀ {args : List Value},
        m.signature.params.length ≤ args.length → ∀ w : World,
          SameResult (Machine.invoke (resolve refs lines file).1 steps depth id args w.left)
            (invoke (templateOf refs lines file) steps depth id args w)
  | 0, _, _, hm, _, hargs, w => sameResult_run hclean steps .none hm hargs w
  | depth + 1, _, _, hm, _, hargs, w =>
    sameResult_run hclean steps (.some (sameCall_invoke hclean steps depth)) hm hargs w

/-- **Scoped meaning**: when a source resolves without an error, its declared methods are the methods it
holds, and the program gives each call of one, on as many arguments as it has parameters, the value or
failure, the log and the document that the interpreter gives it. -/
theorem invoke_resolved (refs : ReferenceSet) (lines : LineIndex) (file : Syntax.File)
    (h : ∀ d ∈ (resolve refs lines file).2, d.severity ≠ .error) :
    (declarations refs file).methods.map Pending.declaration = file.methods ∧
    ∀ (id : MethodId) (m : Pending), (declarations refs file).methods[id]? = some m →
      ∀ args : List Value, args.length = m.declaration.params.length →
        ∀ (steps depth : Nat) (world : Machine.World),
          Machine.invoke (resolve refs lines file).1 steps depth id args world =
            forget (invoke (templateOf refs lines file) steps depth id args ⟨world, []⟩) := by
  have hclean := Program.clean_iff.mpr h
  obtain ⟨hmethods, hlisted⟩ := Program.declarations_clean (Program.clean_declarations hclean)
  refine ⟨hmethods, fun id m hm args hargs steps depth world => ?_⟩
  rw [← (hlisted id m hm).1.length_params] at hargs
  exact (sameCall_invoke hclean steps depth id m args ⟨world, []⟩ hm hargs).eq_forget

end

/-- Adds the squares below a number to it.  The name `n` stands for the number, for the integers of the
loop, and for their squares. -/
def sumOfSquares : Syntax.Method :=
  let here : Span := ⟨0, 0⟩
  let n := Syntax.Expr.ident here "n"
  let total := Syntax.Expr.ident here "total"
  { span := here, isStatic := true, name := ⟨"sum", here⟩
    params := [⟨⟨"n", here⟩, .named here "int"⟩]
    returns := none
    body := [
      .declare here ⟨"total", here⟩ (.literal here (.int 0)),
      .forRange here ⟨"n", here⟩ (.literal here (.int 0)) n [
        .declare here ⟨"n", here⟩ (.binary here .mul n n),
        .assign here ⟨"total", here⟩ (.binary here .add total n)],
      .result here (some (.binary here .add total n))] }

def sumFile : Syntax.File := ⟨[.mk ⟨0, 0⟩ ⟨"T", ⟨0, 0⟩⟩ [.inl sumOfSquares]]⟩

/-- The text of the value that a call gives, if it gives one. -/
def textOf? : EStateM.Result Halt Machine.World Value → Option String
  | .ok v _ => some v.text
  | .error _ _ => none

theorem sumFile_resolves :
    ∀ d ∈ (resolve ⟨[.core]⟩ ⟨[0]⟩ sumFile).2, d.severity ≠ .error := by
  decide +kernel

theorem invoke_resolved_sum :
    (∀ d ∈ (resolve ⟨[.core]⟩ ⟨[0]⟩ sumFile).2, d.severity ≠ .error) ∧
    textOf? (Machine.invoke (resolve ⟨[.core]⟩ ⟨[0]⟩ sumFile).1 0 0 0 [.int 4] {}) = some "18" := by
  refine ⟨sumFile_resolves, ?_⟩
  obtain ⟨hmethods, hinvoke⟩ := invoke_resolved ⟨[.core]⟩ ⟨[0]⟩ sumFile sumFile_resolves
  obtain ⟨m, hm⟩ : ∃ m, (declarations ⟨[.core]⟩ sumFile).methods[0]? = some m :=
    Option.isSome_iff_exists.mp (by decide +kernel)
  have hdeclaration : m.declaration = sumOfSquares := by
    have hfirst := congrArg (·[0]?) hmethods
    rw [List.getElem?_map, hm] at hfirst
    exact Option.some.inj hfirst
  rw [hinvoke 0 m hm [.int 4] (by rw [hdeclaration]; rfl) 0 0 {}]
  decide +kernel

end ReportTemplate.Scoped
