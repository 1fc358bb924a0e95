import ReportTemplate.Proofs.Program.Resolves

/-!
# ReportTemplate.Proofs.Program.Clears — resolution without an error

Whatever is reported stays reported.  `Clears x Q` says of a computation in the scope of a method: when
no error stands reported behind it, none stood in front of it, and from a scope that a view describes
it comes to a scope that a view `w` describes, with a result that `Q` relates to both views.
-/

namespace ReportTemplate.Program

/-- Nothing but warnings has been reported. -/
def Clean (ds : List Diagnostic) : Prop := ∀ d ∈ ds, d.severity = .warning

theorem clean_iff {ds : List Diagnostic} : Clean ds ↔ ∀ d ∈ ds, d.severity ≠ .error := by
  refine forall₂_congr fun d _ => ?_
  cases d.severity with
  | error => exact ⟨fun h => absurd h (by decide), fun h => absurd rfl h⟩
  | warning => exact ⟨fun _ => by decide, fun _ => rfl⟩

theorem clean_append {ds es : List Diagnostic} : Clean (ds ++ es) ↔ Clean ds ∧ Clean es :=
  List.forall_mem_append

/-- A view describes the scope of a method. -/
structure View.At (v : View) (σ : Scope) : Prop where
  visible : σ.visible = v.slots.flatten
  size : σ.locals.length = v.size
  types : Aligned (fun slot ty => (σ.locals[slot]?).map Local.ty = some ty) v.slots v.types
  good : v.Good

theorem View.At.enter {v : View} {σ : Scope} (h : v.At σ) : v.enter.At σ :=
  ⟨h.visible, h.size, h.types.enter, h.good.enter⟩

/-- Marks on locals other than their types do not matter. -/
theorem View.At.of_locals {v : View} {σ τ : Scope} (h : v.At σ) (hvisible : τ.visible = σ.visible)
    (hsize : τ.locals.length = σ.locals.length)
    (htypes : ∀ slot : Nat, (τ.locals[slot]?).map Local.ty = (σ.locals[slot]?).map Local.ty) :
    v.At τ := by
  refine ⟨hvisible.trans h.visible, hsize.trans h.size, h.types.mono fun slot _ ty hty => ?_, h.good⟩
  rw [htypes slot]
  exact hty

/-- A computation that reports no error follows its views. -/
def Clears {α : Type} (x : Resolve α) (Q : View → α → View → Prop) : Prop :=
  ∀ σ, Clean (x σ).2.found →
    Clean σ.found ∧ ∀ v : View, v.At σ → ∃ w : View, Q v (x σ).1 w ∧ w.At (x σ).2

namespace Clears

variable {α β : Type} {x : Resolve α} {Q : View → α → View → Prop}

theorem mono {Q' : View → α → View → Prop} (h : Clears x Q) (hQ : ∀ v a w, Q v a w → Q' v a w) :
    Clears x Q' := by
  intro σ hclean
  obtain ⟨hσ, hview⟩ := h σ hclean
  refine ⟨hσ, fun v hv => ?_⟩
  obtain ⟨w, hw, hat⟩ := hview v hv
  exact ⟨w, hQ _ _ _ hw, hat⟩

theorem pure (a : α) : Clears (Pure.pure a) fun v b w => b = a ∧ w = v :=
  fun _ hclean => ⟨hclean, fun v hv => ⟨v, ⟨rfl, rfl⟩, hv⟩⟩

theorem bind {f : α → Resolve β} {R : α → View → β → View → Prop} (hx : Clears x Q)
    (hf : ∀ a, Clears (f a) (R a)) :
    Clears (x >>= f) fun v b u => ∃ a w, Q v a w ∧ R a w b u := by
  intro σ hclean
  obtain ⟨hτ, hlater⟩ := hf (x σ).1 (x σ).2 hclean
  obtain ⟨hσ, hfirst⟩ := hx σ hτ
  refine ⟨hσ, fun v hv => ?_⟩
  obtain ⟨w, hw, hat⟩ := hfirst v hv
  obtain ⟨u, hu, hat⟩ := hlater w hat
  exact ⟨u, ⟨_, w, hw, hu⟩, hat⟩

end Clears

namespace Resolve

/-! ### Reports and locals -/

theorem clears_report_error {code : Diagnostic.Code} (hcode : code.severity = .error)
    (message : String) (span : Span) (Q : View → Unit → View → Prop) :
    Clears (report code message span) Q := by
  intro σ hclean
  have hd : code.severity = .warning := (clean_append.mp hclean).2 _ List.mem_cons_self
  rw [hcode] at hd
  cases hd

theorem clears_report_warning (code : Diagnostic.Code) (message : String) (span : Span) :
    Clears (report code message span) fun v _ w => w = v :=
  fun _ hclean => ⟨(clean_append.mp hclean).1, fun v hv =>
    ⟨v, rfl, hv.of_locals rfl rfl fun _ => rfl⟩⟩

theorem bind_apply {α β : Type} (x : Resolve α) (f : α → Resolve β) (σ : Scope) :
    (x >>= f) σ = f (x σ).1 (x σ).2 := rfl

theorem lookup_eq (name : String) (σ : Scope) :
    lookup name σ = ((σ.visible.lookup name).map fun slot =>
      (slot, (σ.locals[slot]?.map Local.ty).getD .any), σ) := by
  have hget : (get : Resolve Scope) σ = (σ, σ) := rfl
  unfold lookup
  rw [bind_apply, hget]
  cases σ.visible.lookup name <;> rfl

theorem clears_lookup (name : String) :
    Clears (lookup name) fun v found w => w = v ∧ match found with
      | some (slot, ty) => v.slots.read? name = some slot ∧ v.types.read? name = some ty
      | none => v.slots.read? name = none ∧ v.types.read? name = none := by
  intro σ hclean
  rw [lookup_eq] at hclean ⊢
  refine ⟨hclean, fun v hv => ⟨v, ⟨rfl, ?_⟩, hv⟩⟩
  rw [hv.visible, Scopes.lookup_flatten]
  cases hslot : v.slots.read? name with
  | none => exact ⟨rfl, hv.types.read?_none hslot⟩
  | some slot =>
    obtain ⟨ty, hread, hty⟩ := hv.types.exists_of_read? hslot
    refine ⟨rfl, ?_⟩
    rw [hty]
    exact hread

/-- To use a local leaves its type. -/
theorem map_ty_use (slot i : Slot) (σ : Scope) :
    ((use slot σ).2.locals[i]?).map Local.ty = (σ.locals[i]?).map Local.ty := by
  show ((σ.locals.modify slot _)[i]?).map Local.ty = _
  rw [List.getElem?_modify]
  cases σ.locals[i]? with
  | none => rfl
  | some l => by_cases h : slot = i <;> simp [h]

theorem clears_use (slot : Slot) : Clears (use slot) fun v _ w => w = v := by
  intro σ hclean
  refine ⟨hclean, fun v hv => ⟨v, rfl, hv.of_locals rfl ?_ fun i => map_ty_use slot i σ⟩⟩
  exact List.length_modify _ _ _

theorem clears_declare (name : String) (ty : Ty) (span : Span) (watched : Bool) :
    Clears (declare name ty span watched) fun v slot w => slot = v.size ∧ w = v.declare name ty := by
  intro σ hclean
  refine ⟨hclean, fun v hv => ⟨v.declare name ty, ⟨hv.size, rfl⟩, ?_, ?_, ?_, ?_⟩⟩
  · show (name, σ.locals.length) :: σ.visible = (v.slots.declare name v.size).flatten
    rw [Scopes.flatten_declare, hv.size, hv.visible]
  · show (σ.locals ++ [_]).length = v.size + 1
    rw [List.length_append, hv.size]
    rfl
  · refine Aligned.declare (hv.types.mono fun slot hslot t ht => ?_) ?_ name
    · show ((σ.locals ++ [_])[slot]?).map Local.ty = some t
      rw [List.getElem?_append_left (by rw [hv.size]; exact hv.good.lt_size slot hslot)]
      exact ht
    · show ((σ.locals ++ [_])[v.size]?).map Local.ty = some ty
      rw [← hv.size, List.getElem?_concat_length]
      rfl
  · exact hv.good.declare name ty

theorem clears_get : Clears (get : Resolve Scope) fun v _ w => w = v :=
  fun _ hclean => ⟨hclean, fun v hv => ⟨v, rfl, hv⟩⟩

/-- A local of which nothing is known any more has the type `any`. -/
theorem at_forget {v : View} {σ : Scope} (h : v.At σ) {name : String} {slot : Slot}
    (hslot : v.slots.read? name = some slot) :
    View.At { v with types := v.types.assign name .any }
      (change slot (fun l => { l with ty := .any }) σ).2 := by
  refine ⟨h.visible, ?_, ?_, h.good.nodup, h.good.lt_size⟩
  · exact (List.length_modify _ _ _).trans h.size
  · refine h.types.assign hslot h.good.nodup ?_ fun i hi ty hty => ?_
    · have hlt : slot < σ.locals.length := by
        rw [h.size]
        exact h.good.lt_size slot (Scopes.mem_of_read? hslot)
      show ((σ.locals.modify slot _)[slot]?).map Local.ty = some .any
      rw [List.getElem?_modify, List.getElem?_eq_getElem hlt]
      simp
    · show ((σ.locals.modify slot _)[i]?).map Local.ty = some ty
      rw [List.getElem?_modify]
      simpa [Ne.symm hi] using hty

theorem clears_reportUnused (slots : List Slot) : Clears (reportUnused slots) fun v _ w => w = v := by
  induction slots with
  | nil => exact (Clears.pure ()).mono fun _ _ _ h => h.2
  | cons slot slots ih =>
    refine (Clears.bind (R := fun _ v _ w => w = v) clears_get fun σ => ?_).mono ?_
    · split
      · split
        · refine ((clears_report_warning _ _ _).bind fun _ => ih).mono ?_
          rintro v _ w ⟨_, u, rfl, rfl⟩
          rfl
        · exact ih
      · exact ih
    · rintro v _ w ⟨_, u, rfl, rfl⟩
      rfl

theorem clears_inScope {α : Type} {body : Resolve α} {Q : View → α → View → Prop}
    (hbody : Clears body Q) (hext : ∀ v a w, Q v a w → v.Extends w) :
    Clears (inScope body) fun v a u => ∃ w, Q v.enter a w ∧ u = w.leave := by
  intro σ hclean
  have hunused := clears_reportUnused ((((body σ).2.visible.take
    ((body σ).2.visible.length - σ.visible.length)).reverse.map Prod.snd)) (body σ).2 hclean
  obtain ⟨hτ, hclose⟩ := hunused
  obtain ⟨hσ, hview⟩ := hbody σ hτ
  refine ⟨hσ, fun v hv => ?_⟩
  obtain ⟨w, hw, hat⟩ := hview v.enter hv.enter
  obtain ⟨u, hu, hat'⟩ := hclose w hat
  rw [hu] at hat'
  have hslots : w.leave.slots = v.slots := (hext _ _ _ hw).leave_slots
  refine ⟨w.leave, ⟨w, hw, rfl⟩, ?_, hat'.size, hat'.types.leave, ?_⟩
  · rw [hslots]
    exact hv.visible
  · exact ((hext _ _ _ hw).block).good hv.good

theorem clears_checkCount (name : String) (wanted found : Nat) (span : Span) :
    Clears (checkCount name wanted found span) fun v ok w => ok = true ∧ wanted = found ∧ w = v := by
  unfold checkCount
  split
  next h => exact (Clears.pure true).mono fun _ _ _ hr => ⟨hr.1, h, hr.2⟩
  next =>
    refine ((clears_report_error rfl _ span fun _ _ _ => False).bind fun _ => .pure false).mono ?_
    rintro v a w ⟨_, _, h, -⟩
    exact h.elim

/-- What is reported as an error does not clear, whatever is returned. -/
theorem clears_refused {α : Type} {code : Diagnostic.Code} (hcode : code.severity = .error)
    (message : String) (span : Span) (a : α) (Q : View → α → View → Prop) :
    Clears (do report code message span; return a) Q := by
  refine ((clears_report_error hcode message span fun _ _ _ => False).bind fun _ => .pure a).mono ?_
  rintro v r w ⟨_, _, h, -⟩
  exact h.elim

/-- A result that needs the right number of arguments. -/
theorem clears_counted {α : Type} (name : String) (wanted found : Nat) (span : Span) (a b : α) :
    Clears (do if ← checkCount name wanted found span then return a else return b)
      fun v r w => w = v ∧ wanted = found ∧ r = a := by
  refine (Clears.bind (R := fun ok v r w => w = v ∧ (ok = true → r = a))
    (clears_checkCount name wanted found span) fun ok => ?_).mono ?_
  · cases ok with
    | true => exact (Clears.pure a).mono fun _ _ _ h => ⟨h.2, fun _ => h.1⟩
    | false => exact (Clears.pure b).mono fun _ _ _ h => ⟨h.2, fun h => by cases h⟩
  · rintro v r w ⟨ok, u, ⟨hok, hcount, rfl⟩, rfl, hr⟩
    exact ⟨rfl, hcount, hr hok⟩

theorem clears_reach (reached : Reached) (span : Span) :
    Clears (reach reached span) fun v _ w => w = v := by
  cases reached with
  | returned =>
    refine ((clears_report_warning _ _ span).bind fun _ => .pure _).mono ?_
    rintro v r w ⟨_, u, rfl, -, rfl⟩
    rfl
  | «open» => exact (Clears.pure _).mono fun _ _ _ h => h.2
  | reported => exact (Clears.pure _).mono fun _ _ _ h => h.2

theorem clears_assign (line : Nat) (name : Syntax.Ident) (value : Expr) (ty : Ty) :
    Clears (assign line name value ty) fun v s w => ∃ slot, v.slots.read? name.text = some slot ∧
      s = .store line slot value ∧
        w = { v with types := Scoped.assignType name.text ty v.types } := by
  intro σ hclean
  unfold assign at hclean ⊢
  rw [bind_apply, lookup_eq] at hclean ⊢
  cases hvisible : σ.visible.lookup name.text with
  | none =>
    rw [hvisible] at hclean
    simp only [Option.map_none] at hclean ⊢
    obtain ⟨hσ, hview⟩ :=
      clears_refused rfl _ name.span (Stmt.expr line value) (fun _ _ _ => False) σ hclean
    refine ⟨hσ, fun v hv => ?_⟩
    obtain ⟨_, hfalse, -⟩ := hview v hv
    exact hfalse.elim
  | some slot =>
    rw [hvisible] at hclean
    simp only [Option.map_some] at hclean ⊢
    have hread (v : View) (hv : v.At σ) : v.slots.read? name.text = some slot ∧
        v.types.read? name.text = σ.locals[slot]?.map Local.ty := by
      rw [hv.visible, Scopes.lookup_flatten] at hvisible
      obtain ⟨t, ht, hlocal⟩ := hv.types.exists_of_read? hvisible
      exact ⟨hvisible, by rw [ht, hlocal]⟩
    by_cases hty : (σ.locals[slot]?.map Local.ty).getD .any = ty
    · rw [if_neg (not_not_intro hty)] at hclean ⊢
      refine ⟨hclean, fun v hv => ⟨v, ⟨slot, (hread v hv).1, rfl, ?_⟩, hv⟩⟩
      unfold Scoped.assignType
      rw [(hread v hv).2, if_pos hty]
    · rw [if_pos hty] at hclean ⊢
      refine ⟨hclean, fun v hv => ⟨_, ⟨slot, (hread v hv).1, rfl, ?_⟩, at_forget hv (hread v hv).1⟩⟩
      unfold Scoped.assignType
      rw [(hread v hv).2, if_neg hty]

end Resolve

end ReportTemplate.Program
