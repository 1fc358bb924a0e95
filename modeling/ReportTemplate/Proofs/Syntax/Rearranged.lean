import Mathlib.Data.List.Forall2
import ReportTemplate.Proofs.Syntax.Calls

/-!
# ReportTemplate.Proofs.Syntax.Rearranged — sources whose methods stand in another order

The methods of a class may change places with one another and with the classes inside the class.  The
classes keep their order, and no node changes.
-/

namespace ReportTemplate.Syntax

/-! ### Classes inside classes -/

mutual

/-- What holds of a class when it holds of those directly inside it holds of every class. -/
theorem Class.insideOut {P : Class → Prop} (h : ∀ c : Class, (∀ i ∈ c.nested, P i) → P c) :
    ∀ c : Class, P c
  | .mk _ _ members => h _ (Class.insideOut_members h members)

theorem Class.insideOut_members {P : Class → Prop} (h : ∀ c : Class, (∀ i ∈ c.nested, P i) → P c) :
    ∀ members : List (Method ⊕ Class), ∀ i ∈ members.filterMap Sum.getRight?, P i
  | [] => nofun
  | .inl _ :: members => Class.insideOut_members h members
  | .inr c :: members =>
    List.forall_mem_cons.mpr ⟨Class.insideOut h c, Class.insideOut_members h members⟩

end

/-- The methods that a member of a class brings. -/
def Class.memberMethods : Method ⊕ Class → List Method :=
  Sum.elim (fun m => [m]) Class.allMethods

/-- The methods in a class are those that its members bring. -/
theorem Class.allMethods_perm (c : Class) : c.allMethods.Perm (c.members.flatMap memberMethods) := by
  cases c with
  | mk span name members =>
    show (members.filterMap Sum.getLeft? ++ Class.nestedMethods members).Perm
      (members.flatMap memberMethods)
    induction members with
    | nil => exact .refl _
    | cons x members ih =>
      cases x with
      | inl m => exact ih.cons m
      | inr c =>
        rw [List.flatMap_cons]
        exact List.perm_append_comm_assoc _ _ _ |>.trans (ih.append_left _)

/-! ### Rearranged sources -/

/-- The methods of a class, and of each class inside it, stand in another order. -/
inductive Class.Rearranged : Class → Class → Prop
  | mk {c d : Class} (span : d.span = c.span) (name : d.name = c.name)
      (methods : c.methods.Perm d.methods) (nested : List.Forall₂ Rearranged c.nested d.nested) :
      Rearranged c d

/-- The methods of each class stand in another order. -/
def File.Rearranged (f g : File) : Prop := List.Forall₂ Class.Rearranged f.classes g.classes

theorem Class.Rearranged.name {c d : Class} (h : c.Rearranged d) : d.name = c.name := by
  cases h with
  | mk span name methods nested => exact name

theorem Class.Rearranged.refl (c : Class) : c.Rearranged c := by
  induction c using Class.insideOut with
  | h c ih => exact .mk rfl rfl (.refl _) (List.forall₂_same.mpr ih)

theorem Class.Rearranged.symm {c d : Class} (h : c.Rearranged d) : d.Rearranged c := by
  induction c using Class.insideOut generalizing d with
  | h c ih =>
    cases h with
    | mk span name methods nested =>
      have hnested := ((List.forall₂_and_left _ _).mpr ⟨ih, nested⟩).imp fun _ _ hi => hi.1 hi.2
      exact .mk span.symm name.symm methods.symm (List.Forall₂.flip hnested)

theorem File.Rearranged.symm {f g : File} (h : f.Rearranged g) : g.Rearranged f :=
  List.Forall₂.flip (h.imp fun _ _ hc => hc.symm)

/-- The class with its methods in the opposite order, behind the classes inside it. -/
def Class.turned (c : Class) : Class :=
  .mk c.span c.name (c.nested.map Sum.inr ++ c.methods.reverse.map Sum.inl)

theorem Class.rearranged_turned (c : Class) : c.Rearranged c.turned := by
  have hmethods : c.turned.methods = c.methods.reverse := by
    simp [turned, methods, members, List.filterMap_append, List.filterMap_map, Function.comp_def]
  have hnested : c.turned.nested = c.nested := by
    simp [turned, nested, members, List.filterMap_append, List.filterMap_map, Function.comp_def]
  refine .mk rfl rfl ?_ ?_
  · rw [hmethods]
    exact (List.reverse_perm _).symm
  · rw [hnested]
    exact List.forall₂_same.mpr fun i _ => .refl i

/-- The source with the methods of its outer classes in the opposite order. -/
def File.turned (f : File) : File := ⟨f.classes.map Class.turned⟩

theorem File.rearranged_turned (f : File) : f.Rearranged f.turned :=
  List.forall₂_map_right_iff.mpr (List.forall₂_same.mpr fun c _ => c.rearranged_turned)

end ReportTemplate.Syntax
