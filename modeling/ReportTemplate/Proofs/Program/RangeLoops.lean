import ReportTemplate.Library.Collections
import ReportTemplate.Proofs.Library.Integers
import ReportTemplate.Proofs.Machine.Iteration
import ReportTemplate.Proofs.Program.StaticTypes
import ReportTemplate.Proofs.Scoped.Follows

/-!
# ReportTemplate.Proofs.Program.RangeLoops — the two ways to count

`range(a, b)` is a list that a loop goes through like any other, and `a..b` is counted by the loop
itself.  Both are told by the same list of integers.  The binding of the loop has the static type
`any` in the one and `int` in the other, so the same body is resolved under two views.
-/

namespace ReportTemplate

/-! ### The integers of a range -/

/-- The library function that gives the integers of a range as a list. -/
def rangeFunction : Function := .binary "range" Library.Collections.range

namespace Machine

open Program
open Scoped (run_bind_ok)

/-- The integers of a range are the first integer and those behind it, none of them wrapped. -/
theorem rangeValues_getElem? (a b : Int64) {k : Nat} (hk : k < (b.toInt - a.toInt).toNat) :
    ∃ n : Int64, (rangeValues a b)[k]? = some (.int n) ∧ n.toInt = a.toInt + k := by
  have low := a.minValue_le_toInt
  have high := b.toInt_le
  obtain ⟨n, hn⟩ : Library.Has64Bits (a.toInt + k) := Library.has64Bits_iff.2 (by omega)
  refine ⟨n, ?_, hn⟩
  rw [rangeValues, List.getElem?_map, List.getElem?_range hk, Option.map_some, ← hn,
    Int64.ofInt_toInt]

theorem length_rangeValues (a b : Int64) :
    (rangeValues a b).length = (b.toInt - a.toInt).toNat := by
  rw [rangeValues, List.length_map, List.length_range]

theorem range_ints (a b : Int64) : Library.Collections.range (.int a) (.int b) =
    if b.toInt - a.toInt ≤ maxListLength then .ok (.list (rangeValues a b))
    else .error (.tooLarge "range" maxListLength) := by
  have hsize : (b.toInt - a.toInt).toNat ≤ maxListLength ↔ b.toInt - a.toInt ≤ maxListLength :=
    Int.toNat_le
  unfold Library.Collections.range Library.checkSize
  simp only [Library.expectInt, bind, Except.bind]
  by_cases h : b.toInt - a.toInt ≤ maxListLength
  · rw [if_pos h, if_pos (hsize.2 h)]
    rfl
  · rw [if_neg h, if_neg (mt hsize.1 h)]

/-- `range` is the list of the integers from the first on and below the second, unless it is too long. -/
theorem range_cases (a b : Int64) :
    (b.toInt - a.toInt ≤ maxListLength → ∃ vs : List Value,
      Library.Collections.range (.int a) (.int b) = .ok (.list vs) ∧
        vs.length = (b.toInt - a.toInt).toNat ∧
        ∀ k < vs.length, ∃ n : Int64, vs[k]? = some (.int n) ∧ n.toInt = a.toInt + k) ∧
    (maxListLength < b.toInt - a.toInt → Library.Collections.range (.int a) (.int b) =
      .error (.tooLarge "range" maxListLength)) := by
  refine ⟨fun hsize => ?_, fun hsize => ?_⟩
  · refine ⟨rangeValues a b, by rw [range_ints, if_pos hsize], length_rangeValues a b, ?_⟩
    rw [length_rangeValues]
    exact fun k hk => rangeValues_getElem? a b hk
  · rw [range_ints, if_neg (by omega)]

theorem range_ok {x y v : Value} (h : Library.Collections.range x y = .ok v) :
    ∃ a b : Int64, x = .int a ∧ y = .int b ∧ b.toInt - a.toInt ≤ maxListLength ∧
      v = .list (rangeValues a b) := by
  cases x with
  | int a =>
    cases y with
    | int b =>
      rw [range_ints] at h
      by_cases hsize : b.toInt - a.toInt ≤ maxListLength
      · rw [if_pos hsize] at h
        cases h
        exact ⟨a, b, rfl, rfl, hsize, rfl⟩
      · rw [if_neg hsize] at h
        cases h
    | _ => cases h
  | _ => cases h

/-! ### The two loops -/

section

variable {f : Frame} {slot : Slot} {body : List Stmt} {first last : Expr} {a b : Int64}
  {s t u : State}

/-- A loop that counts is a loop over the integers of the range. -/
theorem exec_forRange {line : Nat} (ha : eval f first s = .ok (.int a) t)
    (hb : eval f last t = .ok (.int b) u) :
    exec f (.forRange line slot first last body) s =
      loopOver slot (execAll f body) (rangeValues a b) u := by
  rw [exec, run_bind_ok ha, run_bind_ok (x := bound f first.line (.int a)) rfl, run_bind_ok hb,
    run_bind_ok (x := bound f last.line (.int b)) rfl, loopCount_eq_loopOver]
  rfl

/-- A call of the library function has a value exactly when both bounds are integers and the range
is not too long. -/
theorem eval_range {line : Nat} {v : Value} :
    eval f (.callFunction line rangeFunction [first, last]) s = .ok v u ↔
      ∃ a b t, eval f first s = .ok (.int a) t ∧ eval f last t = .ok (.int b) u ∧
        b.toInt - a.toInt ≤ maxListLength ∧ v = .list (rangeValues a b) := by
  have hcall (x y : Value) : rangeFunction.call [x, y] = Library.Collections.range x y := rfl
  constructor
  · intro h
    simp only [eval, evalAll] at h
    obtain ⟨vs, t', hargs, hcalled⟩ := bind_ok h
    obtain ⟨x, t, hx, hrest⟩ := bind_ok hargs
    obtain ⟨ys, t'', hlast, hpure⟩ := bind_ok hrest
    obtain ⟨y, t₃, hy, hnil⟩ := bind_ok hlast
    cases hnil
    cases hpure
    obtain ⟨hrange, rfl⟩ := attempt_ok hcalled
    rw [hcall] at hrange
    obtain ⟨a, b, rfl, rfl, hsize, rfl⟩ := range_ok hrange
    exact ⟨a, b, t, hx, hy, hsize, rfl⟩
  · rintro ⟨a, b, t, ha, hb, hsize, rfl⟩
    have hargs : evalAll f [first, last] s = .ok [.int a, .int b] u := by
      simp only [evalAll]
      rw [run_bind_ok ha, bind_assoc, run_bind_ok hb]
      rfl
    rw [eval, run_bind_ok hargs, hcall, range_ints, if_pos hsize]
    rfl

/-- The loops do the same with one body, wherever the list is one. -/
theorem exec_range_loops {line call : Nat} (line' : Nat) {v : Value}
    (hv : eval f (.callFunction call rangeFunction [first, last]) s = .ok v u) :
    exec f (.forEach line slot (.callFunction call rangeFunction [first, last]) body) s =
      exec f (.forRange line' slot first last body) s := by
  obtain ⟨a, b, t, ha, hb, -, rfl⟩ := eval_range.1 hv
  rw [exec_forEach hv rfl, exec_forRange ha hb]

end

/-! ### The loops of a source -/

section

variable {S : Surroundings}

/-- A call of `range` where the name stands for the library function. -/
theorem resolves_range (hrange : S.refs.function? "range" = some rangeFunction) {v : View}
    (noLocal : v.slots.read? "range" = none)
    (noMethod : S.declared.findMethod? S.owner "range" = none) {span nameSpan : Span}
    {first last : Syntax.Expr} {e : Expr}
    (h : Resolves S v (.call span ⟨"range", nameSpan⟩ [first, last]) e) :
    ∃ e₁ e₂, Resolves S v first e₁ ∧ Resolves S v last e₂ ∧
      e = .callFunction (S.lines.line span.start) rangeFunction [e₁, e₂] := by
  obtain ⟨_, parts, rfl⟩ := resolves_call h
  obtain _ | ⟨hfirst, _ | ⟨hlast, ⟨⟩⟩⟩ := parts
  refine ⟨_, _, hfirst, hlast, ?_⟩
  unfold callForm
  simp only [noLocal, noMethod, hrange]

/-- The loops of a source do the same, each with the body as it is resolved there. -/
theorem resolves_range_loops (hapart : S.refs.Apart)
    (hrange : S.refs.function? "range" = some rangeFunction) {v : View}
    (noLocal : v.slots.read? "range" = none)
    (noMethod : S.declared.findMethod? S.owner "range" = none) {span span' call nameSpan : Span}
    {binding : Syntax.Ident} {first last : Syntax.Expr} {body : List Syntax.Stmt} {line slot : Nat}
    {items : Expr} {block : List Stmt} {counted : Stmt} {w w' : View}
    (h₁ : ResolvesStmt S v (.forEach span binding (.call call ⟨"range", nameSpan⟩ [first, last]) body)
      (.forEach line slot items block) w)
    (h₂ : ResolvesStmt S v (.forRange span' binding first last body) counted w') {f : Frame}
    {s u : State} {value : Value} (hvalue : eval f items s = .ok value u) :
    exec f (.forEach line slot items block) s = exec f counted s := by
  cases h₁ with
  | forEach values block₁ =>
    cases h₂ with
    | forRange first₂ last₂ block₂ =>
      obtain ⟨e₁, e₂, first₁, last₁, rfl⟩ := resolves_range hrange noLocal noMethod values
      have binds : (v.enter.declare binding.text .any).Vaguer (v.enter.declare binding.text .int) :=
        (View.Vaguer.refl v).enter.declare (.inr ⟨rfl, by simp⟩) binding.text
      have hbody := (resolves_execAll_eq hapart f body binds.enter block₁ block₂).1
      have hfirst := resolves_eval_eq hapart f (.refl v) first first₁ first₂
      have hlast := resolves_eval_eq hapart f (.refl v) last last₁ last₂
      rw [exec_range_loops 0 hvalue, exec, exec, hfirst, hlast, hbody, first₁.line,
        first₂.line, last₁.line, last₂.line]

/-- The loops of a source, where a scope says what its names stand for, are resolved to loops that do the
same. -/
theorem exec_resolved_range_loops (hapart : S.refs.Apart)
    (hrange : S.refs.function? "range" = some rangeFunction) {σ : Scope} (hview : ∃ v : View, v.At σ)
    (noLocal : σ.visible.lookup "range" = none)
    (noMethod : S.declared.findMethod? S.owner "range" = none) {span span' call nameSpan : Span}
    {binding : Syntax.Ident} {first last : Syntax.Expr} {body : List Syntax.Stmt}
    (hclean : Clean (Resolve.stmt S
      (.forEach span binding (.call call ⟨"range", nameSpan⟩ [first, last]) body) σ).2.found)
    (hclean' : Clean (Resolve.stmt S (.forRange span' binding first last body) σ).2.found)
    {line slot : Nat} {items : Expr} {block : List Stmt}
    (heach : (Resolve.stmt S
      (.forEach span binding (.call call ⟨"range", nameSpan⟩ [first, last]) body) σ).1 =
        .forEach line slot items block)
    {f : Frame} {s u : State} {value : Value} (hvalue : eval f items s = .ok value u) :
    exec f (.forEach line slot items block) s =
      exec f (Resolve.stmt S (.forRange span' binding first last body) σ).1 s := by
  obtain ⟨v, hat⟩ := hview
  have hfree : v.slots.read? "range" = none := by
    rw [← Scopes.lookup_flatten, ← hat.visible]
    exact noLocal
  obtain ⟨w, h₁, -⟩ := (Resolve.clears_stmt S _ σ hclean).2 v hat
  obtain ⟨w', h₂, -⟩ := (Resolve.clears_stmt S _ σ hclean').2 v hat
  rw [heach] at h₁
  exact resolves_range_loops hapart hrange hfree noMethod h₁ h₂ hvalue

end

/-- **Both ways to count agree.**  For all integers, `range(a, b)` is the list of the integers from `a`
on and below `b` as long as it is not too long, and else an error.  Whenever it is a list, a loop over
it and a loop over `a..b` end alike and leave the same locals, document and log: with one resolved body,
and with the body of a source as each of the loops resolves it, where `range` is the library function
and both loops are free of errors. -/
theorem range_loops_agree :
    (∀ a b : Int64,
      (b.toInt - a.toInt ≤ maxListLength → ∃ vs : List Value,
        Library.Collections.range (.int a) (.int b) = .ok (.list vs) ∧
          vs.length = (b.toInt - a.toInt).toNat ∧
          ∀ k < vs.length, ∃ n : Int64, vs[k]? = some (.int n) ∧ n.toInt = a.toInt + k) ∧
      (maxListLength < b.toInt - a.toInt → Library.Collections.range (.int a) (.int b) =
        .error (.tooLarge "range" maxListLength))) ∧
    (∀ (f : Frame) (line call line' : Nat) (slot : Slot) (first last : Expr) (body : List Stmt)
      (s u : State) (v : Value),
      eval f (.callFunction call rangeFunction [first, last]) s = .ok v u →
        exec f (.forEach line slot (.callFunction call rangeFunction [first, last]) body) s =
          exec f (.forRange line' slot first last body) s) ∧
    ∀ S : Surroundings, S.refs.Apart → S.refs.function? "range" = some rangeFunction →
      ∀ (σ : Scope), (∃ v : View, v.At σ) → σ.visible.lookup "range" = none →
        S.declared.findMethod? S.owner "range" = none →
        ∀ (span span' call nameSpan : Span) (binding : Syntax.Ident) (first last : Syntax.Expr)
          (body : List Syntax.Stmt),
          let each := Resolve.stmt S
            (.forEach span binding (.call call ⟨"range", nameSpan⟩ [first, last]) body) σ
          let counted := Resolve.stmt S (.forRange span' binding first last body) σ
          Clean each.2.found → Clean counted.2.found →
            ∀ line slot items block, each.1 = .forEach line slot items block →
              ∀ (f : Frame) (s u : State) (v : Value), eval f items s = .ok v u →
                exec f each.1 s = exec f counted.1 s := by
  refine ⟨range_cases, ?_, ?_⟩
  · intro f line call line' slot first last body s u v hv
    exact exec_range_loops line' hv
  · intro S hapart hrange σ hview noLocal noMethod span span' call nameSpan binding first last body
      each counted hclean hclean' line slot items block heach f s u v hvalue
    rw [heach]
    exact exec_resolved_range_loops hapart hrange hview noLocal noMethod hclean hclean' heach hvalue

/-- A body that assigns to the binding and calls a function on it. -/
theorem range_loops_agree_assigning :
    let S : Surroundings := ⟨⟨Catalog.standard.libraries⟩, ⟨[0]⟩, {}, 0⟩
    let name (text : String) : Syntax.Ident := ⟨text, ⟨0, 0⟩⟩
    let int (n : Int64) : Syntax.Expr := .literal ⟨0, 0⟩ (.int n)
    let i : Syntax.Expr := .ident ⟨0, 0⟩ "i"
    let body : List Syntax.Stmt := [
      .assign ⟨0, 0⟩ (name "i") (.method ⟨0, 0⟩ i (name "abs") []),
      .branch ⟨0, 0⟩ [(.binary ⟨0, 0⟩ .equal i (int 4), [.result ⟨0, 0⟩ (some i)])] none]
    S.refs.Apart ∧ S.refs.function? "range" = some rangeFunction ∧
      ∀ f : Frame, exec f (Resolve.stmt S (.forEach ⟨0, 0⟩ (name "i")
          (.call ⟨0, 0⟩ (name "range") [int (-5), int 3]) body) {}).1 ⟨#[none], {}⟩ =
        .ok (.returned (.int 4)) ⟨#[some (.int 4)], {}⟩ := by
  intro S name int i body
  have hapart : S.refs.Apart := apart_standard fun _ h => h
  have hrange : S.refs.function? "range" = some rangeFunction := by rfl
  obtain ⟨block, hblock⟩ : ∃ block, (Resolve.stmt S (.forEach ⟨0, 0⟩ (name "i")
      (.call ⟨0, 0⟩ (name "range") [int (-5), int 3]) body) {}).1 = .forEach 1 0
        (.callFunction 1 rangeFunction [.const 1 (.int (-5)), .const 1 (.int 3)]) block := ⟨_, rfl⟩
  obtain ⟨-, -, hloops⟩ := range_loops_agree
  refine ⟨hapart, hrange, fun f => ?_⟩
  have hcounted : exec f (Resolve.stmt S (.forRange ⟨0, 0⟩ (name "i") (int (-5)) (int 3) body) {}).1
      ⟨#[none], {}⟩ = .ok (.returned (.int 4)) ⟨#[some (.int 4)], {}⟩ := by rfl
  rw [← hcounted]
  exact hloops S hapart hrange {} ⟨_, view_at_start⟩ rfl rfl ⟨0, 0⟩ ⟨0, 0⟩ ⟨0, 0⟩ ⟨0, 0⟩ (name "i")
    (int (-5)) (int 3) body (by unfold Clean; decide +kernel) (by unfold Clean; decide +kernel) _ _ _
    block hblock f _ _ _ (eval_range.2 ⟨-5, 3, _, rfl, rfl, by decide, rfl⟩)

end Machine

end ReportTemplate
