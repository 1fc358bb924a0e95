import ReportTemplate.Proofs.Library.Exceeds
import ReportTemplate.Proofs.Machine.Counts
import ReportTemplate.Proofs.Machine.Within
import ReportTemplate.Proofs.Program.InRange
import ReportTemplate.Proofs.Program.Origins

/-!
# ReportTemplate.Proofs.Machine.Sizes — runs within the limits

A run on values within the limits leaves them only where a literal, or a call of a function that checks
no size, gives a text or a list that is too large itself.  A program whose literals are within the limits
and that calls no such function never does.
-/

namespace ReportTemplate

open Value (Bounded bounded_list bounded_of_fits tame_bounded)

/-! ### Functions -/

namespace Library

theorem Exceeds.not_closed {g : Function} (h : Exceeds g) : ¬ g.Closed Bounded := by
  obtain ⟨args, r, hargs, hcall, hlarge⟩ := h
  exact fun hclosed => hlarge (hclosed args r hargs hcall).fits

/-- What is in the value of a function on bounded values is bounded, and the value itself may only be too
large for a function that checks no size. -/
theorem bounded_iff_fits {l : Library} (hl : l ∈ Catalog.standard.libraries) {g : Function}
    (hg : g ∈ l.functions) {args : List Value} (hargs : ∀ a ∈ args, a.Bounded) {r : Value}
    (hcall : g.call args = .ok r) : r.Bounded ↔ (g.name ∈ unchecked → r.Fits) := by
  refine ⟨fun h _ => h.fits, fun hfits => ?_⟩
  rcases checked_or_unchecked l hl g hg with hchecked | hunchecked
  · exact closed_checked tame_bounded g hchecked args r hargs hcall
  · have hname : g.name ∈ unchecked := List.mem_map_of_mem hunchecked
    exact parts_unchecked g hunchecked args r hargs hcall (hfits hname)

/-- The functions that keep the limits are those which check sizes, or need not. -/
theorem closed_iff_checked {l : Library} (hl : l ∈ Catalog.standard.libraries) {g : Function}
    (hg : g ∈ l.functions) : g.Closed Bounded ↔ g.name ∉ unchecked := by
  constructor
  · intro hclosed hname
    rcases checked_or_unchecked l hl g hg with hchecked | hunchecked
    · have hnames : ∀ k ∈ checkedFunctions, k.name ∉ unchecked := by decide
      exact hnames g hchecked hname
    · exact (unchecked_exceeds g hunchecked).not_closed hclosed
  · exact fun hname => closed_checked tame_bounded g (mem_checked hl hg hname)

end Library

/-! ### What a compiled program supplies -/

namespace Program

section

variable {S : Surroundings} {v : View} {e : Syntax.Expr}

theorem Resolves.const_bounded {line : Nat} {r : Value} (h : Resolves S v e (.const line r))
    (hr : r.Fits) : r.Bounded := by
  cases h with
  | @literal _ l => exact bounded_of_fits (by cases l <;> exact nofun) hr

/-- A function that is called in a resolved source has been found in the libraries. -/
theorem exists_library {name : String} {g : Function} (h : S.refs.function? name = some g) :
    ∃ l ∈ S.refs.libraries, g ∈ l.functions :=
  List.mem_flatMap.mp (List.mem_of_find?_eq_some h)

theorem Resolves.function_library {line : Nat} {g : Function} {args : List Expr}
    (h : Resolves S v e (.callFunction line g args)) : ∃ l ∈ S.refs.libraries, g ∈ l.functions := by
  cases h with
  | callFunction _ _ _ found => exact exists_library found
  | receiver _ _ _ _ _ found => exact exists_library found

theorem Resolves.dynamic_library {line : Nat} {name : String} {r : Expr} {args : List Expr}
    {document : Option DocumentMethod} {function : Option Function}
    (h : Resolves S v e (.callDynamic line name r args document function)) :
    ∀ g ∈ function, ∃ l ∈ S.refs.libraries, g ∈ l.functions := by
  cases h with
  | dynamic => exact fun g hg => exists_library (Option.filter_eq_some_iff.mp hg).1

end

/-! ### Programs within the limits -/

mutual

/-- The literals of an expression are within the limits, and the functions that it calls check sizes or
need not. -/
def Expr.limited : Expr → Bool
  | .const _ v => decide v.Fits
  | .slot _ _ => true
  | .list _ items => decide (items.length ≤ maxListLength) && Expr.allLimited items
  | .unary _ _ operand => operand.limited
  | .binary _ _ left right => left.limited && right.limited
  | .index _ target place => target.limited && place.limited
  | .callMethod _ _ args | .callSlot _ _ _ args => Expr.allLimited args
  | .callFunction _ g args => decide (g.name ∉ Library.unchecked) && Expr.allLimited args
  | .callDocument _ _ receiver args => receiver.limited && Expr.allLimited args
  | .callDynamic _ _ receiver args _ function =>
    function.all (fun g => decide (g.name ∉ Library.unchecked)) && receiver.limited &&
      Expr.allLimited args

def Expr.allLimited : List Expr → Bool
  | [] => true
  | e :: es => e.limited && Expr.allLimited es

end

mutual

/-- The expressions of a statement are limited. -/
def Stmt.limited : Stmt → Bool
  | .store _ _ value | .expr _ value => value.limited
  | .branch _ branches otherwise => Stmt.armsLimited branches && Stmt.otherwiseLimited otherwise
  | .loop _ cond body => cond.limited && Stmt.allLimited body
  | .forEach _ _ items body => items.limited && Stmt.allLimited body
  | .forRange _ _ start stop body => start.limited && stop.limited && Stmt.allLimited body
  | .result _ none => true
  | .result _ (some value) => value.limited

def Stmt.allLimited : List Stmt → Bool
  | [] => true
  | s :: ss => s.limited && Stmt.allLimited ss

def Stmt.armsLimited : List (Expr × List Stmt) → Bool
  | [] => true
  | (cond, body) :: rest => cond.limited && Stmt.allLimited body && Stmt.armsLimited rest

def Stmt.otherwiseLimited : Option (List Stmt) → Bool
  | none => true
  | some body => Stmt.allLimited body

end

/-- The literals of a program are within the limits, and the functions that it calls check sizes or need
not. -/
def limited (p : Program) : Bool := p.methods.all fun m => Stmt.allLimited m.body

theorem Expr.allLimited_iff {es : List Expr} :
    Expr.allLimited es = true ↔ ∀ e ∈ es, e.limited = true := by
  induction es with
  | nil => simp [Expr.allLimited]
  | cons e es ih => simp [Expr.allLimited, ih]

theorem Stmt.allLimited_iff {ss : List Stmt} :
    Stmt.allLimited ss = true ↔ ∀ s ∈ ss, s.limited = true := by
  induction ss with
  | nil => simp [Stmt.allLimited]
  | cons s ss ih => simp [Stmt.allLimited, ih]

theorem Stmt.armsLimited_iff {bs : List (Expr × List Stmt)} : Stmt.armsLimited bs = true ↔
    ∀ arm ∈ bs, arm.1.limited = true ∧ ∀ s ∈ arm.2, s.limited = true := by
  induction bs with
  | nil => simp [Stmt.armsLimited]
  | cons arm bs ih => simp [Stmt.armsLimited, Stmt.allLimited_iff, ih]

end Program

namespace Machine

open Program (Expr Stmt Method MethodId Origin)

/-- What a run works on is limited. -/
def Node.limited : Node → Bool
  | value e | condition e | bound e => e.limited
  | stmt s => s.limited

section

variable {f : Frame} {n n' : Node} {s s' : State}

theorem Part.limited (h : Part f n s n' s') (hn : n.limited = true) : n'.limited = true := by
  cases h with
  | condition => exact hn
  | bound => exact hn
  | item comes =>
    exact Program.Expr.allLimited_iff.mp (Bool.and_eq_true_iff.mp hn).2 _ comes.mem
  | operand => exact hn
  | left => exact (Bool.and_eq_true_iff.mp hn).1
  | right => exact (Bool.and_eq_true_iff.mp hn).2
  | andLeft => exact (Bool.and_eq_true_iff.mp hn).1
  | andRight => exact (Bool.and_eq_true_iff.mp hn).2
  | orLeft => exact (Bool.and_eq_true_iff.mp hn).1
  | orRight => exact (Bool.and_eq_true_iff.mp hn).2
  | target => exact (Bool.and_eq_true_iff.mp hn).1
  | place => exact (Bool.and_eq_true_iff.mp hn).2
  | methodArg comes => exact Program.Expr.allLimited_iff.mp hn _ comes.mem
  | functionArg comes =>
    exact Program.Expr.allLimited_iff.mp (Bool.and_eq_true_iff.mp hn).2 _ comes.mem
  | slotArg comes => exact Program.Expr.allLimited_iff.mp hn _ comes.mem
  | documentReceiver => exact (Bool.and_eq_true_iff.mp hn).1
  | documentArg _ comes =>
    exact Program.Expr.allLimited_iff.mp (Bool.and_eq_true_iff.mp hn).2 _ comes.mem
  | dynamicReceiver => exact (Bool.and_eq_true_iff.mp (Bool.and_eq_true_iff.mp hn).1).2
  | dynamicArg _ comes =>
    exact Program.Expr.allLimited_iff.mp (Bool.and_eq_true_iff.mp hn).2 _ comes.mem
  | stored => exact hn
  | evaluated => exact hn
  | test comes =>
    exact (Program.Stmt.armsLimited_iff.mp (Bool.and_eq_true_iff.mp hn).1 _ comes.mem).1
  | taken comes _ inner =>
    exact (Program.Stmt.armsLimited_iff.mp (Bool.and_eq_true_iff.mp hn).1 _ comes.mem).2 _ inner.mem
  | otherwise _ inner =>
    exact Program.Stmt.allLimited_iff.mp (Bool.and_eq_true_iff.mp hn).2 _ inner.mem
  | loopTest => exact (Bool.and_eq_true_iff.mp hn).1
  | loopBody _ _ inner =>
    exact Program.Stmt.allLimited_iff.mp (Bool.and_eq_true_iff.mp hn).2 _ inner.mem
  | items => exact (Bool.and_eq_true_iff.mp hn).1
  | eachBody _ _ _ _ inner =>
    exact Program.Stmt.allLimited_iff.mp (Bool.and_eq_true_iff.mp hn).2 _ inner.mem
  | start => exact (Bool.and_eq_true_iff.mp (Bool.and_eq_true_iff.mp hn).1).1
  | stop => exact (Bool.and_eq_true_iff.mp (Bool.and_eq_true_iff.mp hn).1).2
  | rangeBody _ _ _ _ inner =>
    exact Program.Stmt.allLimited_iff.mp (Bool.and_eq_true_iff.mp hn).2 _ inner.mem
  | returned => exact hn

theorem Leads.limited (h : Leads f n s n' s') (hn : n.limited = true) : n'.limited = true := by
  induction h with
  | refl => exact hn
  | head part _ ih => exact ih (part.limited hn)

/-- What a literal or a list in something limited supplies is not too large, and no function that checks
no size is called there. -/
theorem Supplies.fits {o : Option Function} {vs : List Value} {r : Value} (h : Supplies f n s o vs r)
    (hn : n.limited = true) (ho : ∀ g ∈ o, g.name ∈ Library.unchecked) : r.Fits := by
  cases h with
  | const => exact of_decide_eq_true hn
  | @list _ items vs _ _ parts =>
    have hlength : items.length ≤ maxListLength := of_decide_eq_true (Bool.and_eq_true_iff.mp hn).1
    show vs.length ≤ maxListLength
    rwa [evalAll_length parts]
  | function =>
    have hname := of_decide_eq_true (Bool.and_eq_true_iff.mp hn).1
    exact absurd (ho _ rfl) hname
  | dynamic =>
    have hname := (Bool.and_eq_true_iff.mp (Bool.and_eq_true_iff.mp hn).1).1
    exact absurd (ho _ rfl) (of_decide_eq_true hname)

/-- A limited program is supplied with nothing too large by literals and the functions that check no
size. -/
theorem Passes.fits {p : Program} (hp : p.limited = true) {steps depth d : Nat} {id : MethodId}
    {args : List Value} {w : World} {m : Method} (h : Passes p steps depth id args w d m n s)
    {o : Option Function} {vs : List Value} {r : Value}
    (hsupplies : Supplies (frameAt p steps d m) n s o vs r)
    (ho : ∀ g ∈ o, g.name ∈ Library.unchecked) : r.Fits := by
  obtain ⟨id', args', w', hm, x, t, hcomes, hleads⟩ := h.reaches
  have hbody := List.all_eq_true.mp hp m (List.mem_of_getElem? hm)
  have hx := Program.Stmt.allLimited_iff.mp hbody x hcomes.mem
  exact hsupplies.fits (hleads.limited hx) ho

end

/-- What is supplied at something that comes from a source, out of bounded values, is bounded unless it is
too large itself. -/
theorem Supplies.bounded {S : Program.Surroundings}
    (hrefs : ∀ l ∈ S.refs.libraries, l ∈ Catalog.standard.libraries) {node : Syntax.Node} {f : Frame}
    {n : Node} {s : State} {o : Option Function} {vs : List Value} {r : Value}
    (h : Supplies f n s o vs r) (horigin : Origin S node n) (hvs : ∀ v ∈ vs, v.Bounded)
    (hfits : (∀ g ∈ o, g.name ∈ Library.unchecked) → r.Fits) : r.Bounded := by
  cases h with
  | const =>
    cases horigin with
    | value hresolves => exact hresolves.const_bounded (hfits nofun)
  | list _ => exact bounded_list.mpr ⟨hfits nofun, hvs⟩
  | function _ given =>
    cases horigin with
    | value hresolves =>
      obtain ⟨l, hl, hg⟩ := hresolves.function_library
      refine (Library.bounded_iff_fits (hrefs l hl) hg hvs given).mpr fun hname => hfits ?_
      rintro _ ⟨⟩
      exact hname
  | dynamic _ _ _ given =>
    cases horigin with
    | value hresolves =>
      obtain ⟨l, hl, hg⟩ := hresolves.dynamic_library _ rfl
      refine (Library.bounded_iff_fits (hrefs l hl) hg hvs given).mpr fun hname => hfits ?_
      rintro _ ⟨⟩
      exact hname

section

variable {refs : ReferenceSet} {policy : WarningPolicy} {source : List Char} {c : Compiled}

/-- Every place that a run of a compiled program passes comes from the source. -/
theorem Passes.origin (h : Program.compile refs policy source = .ok c) {steps depth d : Nat}
    {id : MethodId} {args : List Value} {w : World} {m : Method} {n : Node} {s : State}
    (hpasses : Passes c.program steps depth id args w d m n s) :
    ∃ S node, S.refs = refs ∧ Origin S node n := by
  obtain ⟨file, -, hprogram, hclean⟩ := Program.compile_ok h
  obtain ⟨id', args', w', hm, hreaches⟩ := hpasses.reaches
  rw [hprogram] at hm
  obtain ⟨pending, -, himplements⟩ := Program.implements_of_getElem? hclean hm
  obtain ⟨v, hbody, -⟩ := himplements.body
  obtain ⟨node, -, horigin⟩ := hbody.origin hreaches
  exact ⟨_, node, rfl, horigin⟩

end

/-- **Limits on values**: on values within the limits `+` gives a value within the limits, and so does a
function of the standard libraries exactly if it is not one of the nine that check no size.  What such a
function gives has parts within the limits, and is beyond them only if it is too large itself.  A run of a
compiled program on values within the limits holds values within the limits only, and gives such a value,
exactly if what literals and calls of the nine supply on its way is nowhere too large itself. -/
theorem limits_kept (refs : ReferenceSet)
    (hrefs : ∀ l ∈ refs.libraries, l ∈ Catalog.standard.libraries) :
    (∀ a b r : Value, a.Bounded → b.Bounded → Value.binary .add a b = .ok r → r.Bounded) ∧
    (∀ l ∈ refs.libraries, ∀ g ∈ l.functions,
      (g.Closed Bounded ↔ g.name ∉ Library.unchecked) ∧
      ∀ args r, (∀ a ∈ args, a.Bounded) → g.call args = .ok r →
        (r.Bounded ↔ (g.name ∈ Library.unchecked → r.Fits))) ∧
    ∀ (policy : WarningPolicy) (source : List Char) (c : Compiled),
      Program.compile refs policy source = .ok c →
      ∀ (steps depth : Nat) (id : MethodId) (args : List Value) (w : World),
        (∀ a ∈ args, a.Bounded) →
        ((∀ d m n s o vs r, Passes c.program steps depth id args w d m n s →
            Supplies (frameAt c.program steps d m) n s o vs r →
            (∀ g ∈ o, g.name ∈ Library.unchecked) → r.Fits) ↔
          HoldsThroughout c.program steps Bounded depth id args w ∧
            ∀ v w', invoke c.program steps depth id args w = .ok v w' → v.Bounded) := by
  refine ⟨fun a b r ha hb h => gives_binary tame_bounded .add ha hb r h, fun l hl g hg =>
    ⟨Library.closed_iff_checked (hrefs l hl) hg, fun _ _ hargs hcall =>
      Library.bounded_iff_fits (hrefs l hl) hg hargs hcall⟩, ?_⟩
  intro policy source c h steps depth id args w hargs
  have hclosed := tame_bounded.closed
  constructor
  · intro hfits
    have hsupplied : Supplied c.program steps Bounded depth id args w := by
      refine ⟨fun {d m n s o vs r} passes supplies hvs => ?_⟩
      obtain ⟨S, node, rfl, horigin⟩ := passes.origin h
      exact supplies.bounded hrefs horigin hvs (hfits d m n s o vs r passes supplies)
    exact ⟨hsupplied.holds hclosed hargs,
      fun v w' => returns_supplied hclosed depth id args w w' v hargs hsupplied⟩
  · rintro ⟨hholds, -⟩ d m n s o vs r hpasses hsupplies -
    obtain ⟨e, t, rfl, hvalue⟩ := hsupplies.eval
    exact (hholds.value hpasses hvalue).fits

/-- A list that is as long as it may be, with one more item pushed. -/
theorem push_beyond_limit :
    Function.binary "push" Library.Collections.push ∈ Library.collections.functions ∧
    (∀ a ∈ [Value.list (List.replicate maxListLength (.int 1)), .int 1], a.Bounded) ∧
    (Function.binary "push" Library.Collections.push).call
        [.list (List.replicate maxListLength (.int 1)), .int 1] =
      .ok (.list (List.replicate maxListLength (.int 1) ++ [.int 1])) ∧
    ¬ (Value.list (List.replicate maxListLength (.int 1) ++ [.int 1])).Bounded := by
  obtain ⟨hargs, hcall, hlarge⟩ := Library.Collections.push_exceeds
    (Library.Collections.bounded_ones maxListLength) List.length_replicate
    (tame_bounded.int 1)
  exact ⟨List.mem_cons_self, hargs, hcall, fun h => hlarge h.fits⟩

/-- A method that writes a text twice and a mark behind it. -/
def emphasis : List Char :=
  "class T \x7b static fn f(s: string) -> string \x7b return s.repeat(2) + \"!\"; \x7d \x7d".toList

theorem limits_kept_emphasis : ∃ c v w,
    Program.compile ⟨[.core, .text]⟩ {} emphasis = .ok c ∧
    invoke c.program 0 0 0 [.str "ab"] {} = .ok v w ∧ v.text = "abab!" ∧ v.Bounded ∧
    HoldsThroughout c.program 0 Bounded 0 0 [.str "ab"] {} := by
  have hleft : (Program.compile ⟨[.core, .text]⟩ {} emphasis).toOption.bind (fun c =>
      (EStateM.run' (invoke c.program 0 0 0 [.str "ab"]) {}).map fun v =>
        (c.program.limited, v.text)) = some (true, "abab!") := by
    decide +kernel
  cases hc : Program.compile ⟨[.core, .text]⟩ {} emphasis with
  | error found => rw [hc] at hleft; cases hleft
  | ok c =>
    rw [hc] at hleft
    dsimp only [Except.toOption, Option.bind_some, EStateM.run', EStateM.run] at hleft
    cases hrun : invoke c.program 0 0 0 [.str "ab"] {} with
    | error k w => rw [hrun] at hleft; cases hleft
    | ok v w =>
      rw [hrun] at hleft
      obtain ⟨hlimited, htext⟩ := Prod.mk.inj (Option.some.inj hleft)
      have hrefs : ∀ l ∈ [Library.core, .text], l ∈ Catalog.standard.libraries := by
        simp [Catalog.standard]
      have hargs : ∀ a ∈ [Value.str "ab"], a.Bounded :=
        List.forall_mem_singleton.mpr (Value.bounded_str.mpr (by decide))
      obtain ⟨hholds, hvalue⟩ := ((limits_kept _ hrefs).2.2 _ _ c hc 0 0 0 _ {} hargs).mp
        fun _ _ _ _ _ _ _ hpasses => hpasses.fits hlimited
      exact ⟨c, v, w, rfl, hrun, htext, hvalue v w hrun, hholds⟩

end Machine

end ReportTemplate
