import ReportTemplate.Proofs.Machine.Slots
import ReportTemplate.Proofs.Program.Resolves

/-!
# ReportTemplate.Proofs.Scoped.Follows — the machine and the interpreter side by side

`Simulates P x y Q` says that from states related by `P` the machine's `x` and the interpreter's `y`
end alike: with the same value in states related by `Q`, or with the same failure and the same document
and log.  Neither ends broken.
-/

namespace ReportTemplate.Scoped

open Machine (Halt Flow)
open Program (Slot)

/-! ### Outcomes -/

section

variable {σ α β : Type} {x : EStateM Halt σ α} {s t : σ}

theorem run_bind_ok {a : α} (h : x s = .ok a t) (f : α → EStateM Halt σ β) :
    (x >>= f) s = f a t := by
  show EStateM.bind x f s = f a t
  unfold EStateM.bind
  rw [h]

theorem run_bind_error {k : Halt} (h : x s = .error k t) (f : α → EStateM Halt σ β) :
    (x >>= f) s = .error k t := by
  show EStateM.bind x f s = .error k t
  unfold EStateM.bind
  rw [h]

end

/-- Two computations end alike, and not because the program is broken. -/
inductive Follows {σ τ α : Type} (Q : α → σ → τ → Prop) (E : σ → τ → Prop) :
    EStateM.Result Halt σ α → EStateM.Result Halt τ α → Prop
  | ok {a : α} {t : σ} {u : τ} (states : Q a t u) : Follows Q E (.ok a t) (.ok a u)
  | error {h : Halt} {t : σ} {u : τ} (sound : h ≠ .broken) (states : E t u) :
      Follows Q E (.error h t) (.error h u)

theorem Follows.ne_broken {σ τ α : Type} {Q : α → σ → τ → Prop} {E : σ → τ → Prop} {k : Halt} {t : σ}
    {y : EStateM.Result Halt τ α} (h : Follows Q E (.error k t) y) : k ≠ .broken := by
  cases h with
  | error sound _ => exact sound

/-- The same document and log. -/
def SameWorld (t : Machine.State) (u : State) : Prop := t.world = u.world.left

/-- From related states the machine and the interpreter end alike. -/
def Simulates {α : Type} (P : Machine.State → State → Prop) (x : Machine.Exec α) (y : Exec α)
    (Q : α → Machine.State → State → Prop) : Prop :=
  ∀ t u, P t u → Follows Q SameWorld (x t) (y u)

namespace Simulates

variable {α β : Type} {P : Machine.State → State → Prop} {x : Machine.Exec α} {y : Exec α}
  {Q : α → Machine.State → State → Prop}

theorem pure {a : α} (h : ∀ t u, P t u → Q a t u) :
    Simulates P (Pure.pure a) (Pure.pure a) Q := fun t u hP => .ok (h t u hP)

theorem bind {f : α → Machine.Exec β} {g : α → Exec β} {R : β → Machine.State → State → Prop}
    (hx : Simulates P x y Q) (hf : ∀ a, Simulates (Q a) (f a) (g a) R) :
    Simulates P (x >>= f) (y >>= g) R := by
  intro t u hP
  have hfirst := hx t u hP
  show Follows R SameWorld (EStateM.bind x f t) (EStateM.bind y g u)
  unfold EStateM.bind
  generalize x t = r at hfirst ⊢
  generalize y u = s at hfirst ⊢
  cases hfirst with
  | ok states => exact hf _ _ _ states
  | error sound states => exact .error sound states

end Simulates

/-! ### Computations that do not look at locals -/

/-- Two computations of the machine that do the same and leave the locals alone. -/
def Inert {α : Type} (x y : Machine.Exec α) : Prop := ∀ locals world,
  (∃ a w, x ⟨locals, world⟩ = .ok a ⟨locals, w⟩ ∧ y ⟨#[], world⟩ = .ok a ⟨#[], w⟩) ∨
    ∃ h w, h ≠ .broken ∧ x ⟨locals, world⟩ = .error h ⟨locals, w⟩ ∧
      y ⟨#[], world⟩ = .error h ⟨#[], w⟩

namespace Inert

variable {α β : Type}

theorem pure (a : α) : Inert (Pure.pure a) (Pure.pure a) := fun _ w => .inl ⟨a, w, rfl, rfl⟩

theorem bind {x y : Machine.Exec α} {f g : α → Machine.Exec β} (hx : Inert x y)
    (hf : ∀ a, Inert (f a) (g a)) : Inert (x >>= f) (y >>= g) := by
  intro locals world
  rcases hx locals world with ⟨a, w, hx, hy⟩ | ⟨h, w, hsound, hx, hy⟩
  · rw [run_bind_ok hx, run_bind_ok hy]
    exact hf a locals w
  · rw [run_bind_error hx, run_bind_error hy]
    exact .inr ⟨h, w, hsound, rfl, rfl⟩

theorem modifyWorld (k : Machine.World → Machine.World) :
    Inert (modify fun s => { s with world := k s.world })
      (modify fun s => { s with world := k s.world }) := fun _ w => .inl ⟨(), k w, rfl, rfl⟩

variable {F G : Machine.Frame} (hmethod : F.method = G.method)

include hmethod

theorem fail (line : Nat) (cause : Machine.Cause) :
    Inert (Machine.fail F line cause : Machine.Exec α) (Machine.fail G line cause) := by
  unfold Machine.fail
  rw [hmethod]
  exact fun _ w => .inr ⟨_, w, by simp, rfl, rfl⟩

theorem attempt (line : Nat) (cause : Refusal → Machine.Cause) (r : Except Refusal α) :
    Inert (Machine.attempt F line cause r) (Machine.attempt G line cause r) := by
  cases r with
  | ok a => exact .pure a
  | error r => exact .fail hmethod line (cause r)

theorem truth (line : Nat) (v : Value) :
    Inert (Machine.truth F line v) (Machine.truth G line v) := by
  unfold Machine.truth
  split
  · exact .pure _
  · exact .fail hmethod line _

theorem bound (line : Nat) (v : Value) :
    Inert (Machine.bound F line v) (Machine.bound G line v) := by
  unfold Machine.bound
  split
  · exact .pure _
  · exact .fail hmethod line _

theorem callLog (line : Nat) (name : String) (args : List Value) :
    Inert (Machine.callLog F line name args) (Machine.callLog G line name args) := by
  unfold Machine.callLog
  split
  · exact (modifyWorld fun w => { w with log := w.log.push _ }).bind fun _ => .pure _
  · exact .fail hmethod line _

theorem callDocument (line : Nat) (name : String) (m : DocumentMethod) (args : List Value) :
    Inert (Machine.callDocument F line name m args) (Machine.callDocument G line name m args) := by
  refine (Inert.attempt hmethod line _ _).bind fun block => ?_
  exact (modifyWorld fun w => { w with document := w.document.add block }).bind fun _ => .pure _

theorem callDynamic (line : Nat) (name : String) (receiver : Value) (args : List Value)
    (document : Option DocumentMethod) (function : Option Function) :
    Inert (Machine.callDynamic F line name receiver args document function)
      (Machine.callDynamic G line name receiver args document function) := by
  unfold Machine.callDynamic
  split
  · exact .callDocument hmethod line name _ args
  · split
    · exact .attempt hmethod line _ _
    · exact .fail hmethod line _

end Inert

/-! ### States -/

/-- The machine's locals hold what the names of the interpreter stand for; `slots` are the slots of
these names. -/
structure Sim (slots : Scopes Slot) (size : Nat) (t : Machine.State) (u : State) : Prop where
  world : SameWorld t u
  size : t.locals.size = size
  values : Aligned (fun slot v => t.locals[slot]? = some (some v)) slots u.scopes

/-- States behind a statement: related, unless the method has returned. -/
def After (slots : Scopes Slot) (size : Nat) : Flow → Machine.State → State → Prop
  | .next => Sim slots size
  | .returned _ => SameWorld

section

variable {slots : Scopes Slot} {size : Nat} {α : Type}

theorem simulates_primitive {x y : Machine.Exec α} (h : Inert x y) :
    Simulates (Sim slots size) x (primitive y) fun _ => Sim slots size := by
  rintro ⟨locals, w⟩ ⟨scopes, ⟨left, reached⟩⟩ hsim
  obtain rfl : w = left := hsim.world
  unfold primitive
  rcases h locals w with ⟨a, w', hx, hy⟩ | ⟨k, w', hsound, hx, hy⟩
  · rw [hx, hy]
    exact .ok ⟨rfl, hsim.size, hsim.values⟩
  · rw [hx, hy]
    exact .error hsound rfl

theorem simulates_load {name : String} {slot : Slot} (hslot : slots.read? name = some slot) :
    Simulates (Sim slots size) (Machine.load slot) (load name) fun _ => Sim slots size := by
  intro t u hsim
  obtain ⟨v, hread, hlocal⟩ := hsim.values.exists_of_read? hslot
  have hload : load name u = .ok v u := by
    unfold load
    rw [run_bind_ok (rfl : (get : Exec State) u = .ok u u), hread]
    rfl
  rw [Machine.load_eq hlocal, hload]
  exact .ok hsim

/-- A declaration stores its value in a slot that no visible name has. -/
theorem simulates_declare {slot : Slot} (hslot : slot < size) (hfresh : slot ∉ slots.all)
    (name : String) (v : Value) :
    Simulates (Sim slots size) (Machine.store slot v) (declare name v)
      fun _ => Sim (slots.declare name slot) size := by
  intro t u hsim
  have hlt : slot < t.locals.size := by
    rw [hsim.size]
    exact hslot
  rw [Machine.store_eq hlt]
  refine .ok ⟨hsim.world, ?_, Aligned.declare (hsim.values.mono fun i hi w hw => ?_) ?_ name⟩
  · rw [Array.size_setIfInBounds]
    exact hsim.size
  · rw [Array.getElem?_setIfInBounds_ne (by rintro rfl; exact hfresh hi)]
    exact hw
  · rw [Array.getElem?_setIfInBounds_self_of_lt hlt]

/-- An assignment stores its value in the slot of the name. -/
theorem simulates_assign {name : String} {slot : Slot} (hread : slots.read? name = some slot)
    (hslot : slot < size) (hnodup : slots.all.Nodup) (v : Value) :
    Simulates (Sim slots size) (Machine.store slot v) (assign name v) fun _ => Sim slots size := by
  intro t u hsim
  have hlt : slot < t.locals.size := by
    rw [hsim.size]
    exact hslot
  obtain ⟨w, hw, -⟩ := hsim.values.exists_of_read? hread
  have hassign : assign name v u = .ok () { u with scopes := u.scopes.assign name v } := by
    unfold assign
    rw [run_bind_ok (rfl : (get : Exec State) u = .ok u u), hw]
    rfl
  rw [Machine.store_eq hlt, hassign]
  refine .ok ⟨hsim.world, ?_, hsim.values.assign hread hnodup ?_ fun i hi w hw => ?_⟩
  · rw [Array.size_setIfInBounds]
    exact hsim.size
  · rw [Array.getElem?_setIfInBounds_self_of_lt hlt]
  · rw [Array.getElem?_setIfInBounds_ne (Ne.symm hi)]
    exact hw

/-- A block: the interpreter gives its scope up, the machine only forgets the slots. -/
theorem simulates_inScope {inner : Scopes Slot} (hinner : inner.leave = slots) {x : Machine.Exec Flow}
    {y : Exec Flow} (h : Simulates (Sim slots.enter size) x y (After inner size)) :
    Simulates (Sim slots size) x (inScope y) (After slots size) := by
  intro t u hsim
  have henter : Sim slots.enter size t { u with scopes := u.scopes.enter } :=
    ⟨hsim.world, hsim.size, hsim.values.enter⟩
  have hbody := h t _ henter
  have hrun : inScope y u = (y >>= fun a => do
    modify fun s => { s with scopes := s.scopes.leave }
    return a) { u with scopes := u.scopes.enter } := rfl
  rw [hrun]
  generalize x t = r at hbody ⊢
  generalize hy : y { u with scopes := u.scopes.enter } = s at hbody
  cases hbody with
  | @ok flow t u states =>
    rw [run_bind_ok hy]
    refine .ok ?_
    cases flow with
    | next =>
      refine ⟨states.world, states.size, ?_⟩
      rw [← hinner]
      exact states.values.leave
    | returned v => exact states
  | error sound states =>
    rw [run_bind_error hy]
    exact .error sound states

/-- What follows a statement is not run when the statement returns. -/
theorem simulates_next {P : Machine.State → State → Prop} {inner outer : Scopes Slot}
    {x : Machine.Exec Flow} {y : Exec Flow} {x' : Machine.Exec Flow} {y' : Exec Flow}
    (h : Simulates P x y (After inner size)) (h' : Simulates (Sim inner size) x' y' (After outer size)) :
    Simulates P
      (x >>= fun flow => match flow with
        | .next => x'
        | .returned v => pure (.returned v))
      (y >>= fun flow => match flow with
        | .next => y'
        | .returned v => pure (.returned v)) (After outer size) := by
  refine h.bind fun flow => ?_
  cases flow with
  | next => exact h'
  | returned v => exact .pure fun _ _ hworld => hworld

end

end ReportTemplate.Scoped
