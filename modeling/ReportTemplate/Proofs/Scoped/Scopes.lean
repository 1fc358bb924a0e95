import Mathlib.Data.List.Forall2
import Mathlib.Tactic.Common

/-!
# ReportTemplate.Proofs.Scoped.Scopes — names in nested scopes

A name stands for its latest declaration in the innermost scope that has one.  `Aligned C slots xs`
says that two stacks of scopes have the same names at the same places, and that what they stand for is
related by `C`: a slot and the value in it, or a slot and its type.
-/

namespace ReportTemplate

/-- Names with what they stand for: the innermost scope first, in a scope the latest declaration. -/
abbrev Scopes (α : Type) := List (List (String × α))

namespace Scopes

variable {α : Type}

/-- What a name stands for. -/
def read? (name : String) : Scopes α → Option α
  | [] => none
  | scope :: outer =>
    match scope.lookup name with
    | some a => some a
    | none => read? name outer

/-- A declaration in the innermost scope. -/
def declare (name : String) (a : α) : Scopes α → Scopes α
  | [] => [[(name, a)]]
  | scope :: outer => ((name, a) :: scope) :: outer

/-- The latest declaration of a name in a scope stands for something else. -/
def update (name : String) (a : α) : List (String × α) → List (String × α)
  | [] => []
  | (n, b) :: scope => if name = n then (n, a) :: scope else (n, b) :: update name a scope

/-- The declaration that a name stands for gets another meaning. -/
def assign (name : String) (a : α) : Scopes α → Scopes α
  | [] => []
  | scope :: outer =>
    if (scope.lookup name).isSome then update name a scope :: outer else scope :: assign name a outer

def enter (s : Scopes α) : Scopes α := [] :: s

def leave (s : Scopes α) : Scopes α := s.tail

/-- Everything that is declared. -/
def all (s : Scopes α) : List α := s.flatten.map Prod.snd

@[simp] theorem all_nil : all ([] : Scopes α) = [] := rfl

@[simp] theorem all_cons (scope : List (String × α)) (s : Scopes α) :
    all (scope :: s) = scope.map Prod.snd ++ all s := by
  simp [all]

@[simp] theorem all_enter (s : Scopes α) : all s.enter = all s := rfl

@[simp] theorem leave_enter (s : Scopes α) : s.enter.leave = s := rfl

@[simp] theorem leave_declare (name : String) (a : α) (s : Scopes α) :
    (s.declare name a).leave = s.leave := by
  cases s <;> rfl

@[simp] theorem all_declare (name : String) (a : α) (s : Scopes α) :
    all (s.declare name a) = a :: all s := by
  cases s <;> simp [declare]

theorem flatten_declare (name : String) (a : α) (s : Scopes α) :
    (s.declare name a).flatten = (name, a) :: s.flatten := by
  cases s <;> rfl

theorem read?_inner {name : String} {a : α} {scope : List (String × α)}
    (h : scope.lookup name = some a) (outer : Scopes α) : read? name (scope :: outer) = some a := by
  rw [read?, h]

theorem read?_outer {name : String} {scope : List (String × α)} (h : scope.lookup name = none)
    (outer : Scopes α) : read? name (scope :: outer) = read? name outer := by
  rw [read?, h]

theorem lookup_flatten (name : String) (s : Scopes α) : s.flatten.lookup name = s.read? name := by
  induction s with
  | nil => rfl
  | cons scope outer ih =>
    rw [List.flatten_cons, List.lookup_append, ih]
    cases h : scope.lookup name with
    | none => rw [read?_outer h, Option.none_or]
    | some a => rw [read?_inner h, Option.some_or]

/-- The names that stand for something, the innermost and latest first. -/
def visible (s : Scopes α) : List String := s.flatten.map Prod.fst

@[simp] theorem visible_enter (s : Scopes α) : s.enter.visible = s.visible := rfl

@[simp] theorem visible_declare (name : String) (a : α) (s : Scopes α) :
    (s.declare name a).visible = name :: s.visible := by
  rw [visible, flatten_declare, List.map_cons, visible]

theorem read?_eq_none_iff {s : Scopes α} {name : String} :
    s.read? name = none ↔ name ∉ s.visible := by
  rw [← lookup_flatten, List.lookup_eq_none_iff, visible, List.mem_map]
  constructor
  · rintro h ⟨p, hp, rfl⟩
    simpa using h p hp
  · intro h p hp
    rw [bne_iff_ne]
    rintro rfl
    exact h ⟨p, hp, rfl⟩

theorem mem_of_lookup {name : String} {a : α} {scope : List (String × α)}
    (h : scope.lookup name = some a) : a ∈ scope.map Prod.snd := by
  induction scope with
  | nil => cases h
  | cons p scope ih =>
    rw [List.lookup_cons] at h
    split at h
    · obtain rfl := Option.some.inj h
      exact List.mem_cons_self
    · exact List.mem_cons_of_mem _ (ih h)

theorem mem_of_read? {name : String} {a : α} {s : Scopes α} (h : s.read? name = some a) :
    a ∈ all s := by
  rw [← lookup_flatten] at h
  exact mem_of_lookup h

end Scopes

namespace Scopes

variable {α : Type} {name : String} {a : α}

theorem update_lookup {scope : List (String × α)} (h : scope.lookup name = some a) :
    update name a scope = scope := by
  induction scope with
  | nil => rfl
  | cons p scope ih =>
    obtain ⟨n, b⟩ := p
    rw [List.lookup_cons] at h
    unfold update
    by_cases hn : name = n
    · rw [beq_iff_eq.mpr hn] at h
      obtain rfl : b = a := Option.some.inj h
      rw [if_pos hn]
    · rw [beq_false_of_ne hn] at h
      rw [if_neg hn, ih h]

/-- To give a name what it stands for, or some value where it stands for nothing, changes nothing. -/
theorem assign_read? (name : String) (s : Scopes α) (a : α) :
    s.assign name ((s.read? name).getD a) = s := by
  induction s with
  | nil => rfl
  | cons scope outer ih =>
    unfold assign
    cases h : scope.lookup name with
    | none => rw [read?_outer h, if_neg (by simp), ih]
    | some b => rw [read?_inner h, Option.getD_some, if_pos Option.isSome_some, update_lookup h]

end Scopes

/-! ### Two stacks side by side -/

section

variable {ι α : Type} {C C' : ι → α → Prop}

/-- Two scopes with the same names at the same places. -/
def AlignedScope (C : ι → α → Prop) : List (String × ι) → List (String × α) → Prop :=
  List.Forall₂ fun p q => p.1 = q.1 ∧ C p.2 q.2

/-- Two stacks of scopes with the same names at the same places. -/
def Aligned (C : ι → α → Prop) : Scopes ι → Scopes α → Prop := List.Forall₂ (AlignedScope C)

theorem AlignedScope.mono {is : List (String × ι)} {xs : List (String × α)}
    (h : AlignedScope C is xs) (hC : ∀ i ∈ is.map Prod.snd, ∀ a, C i a → C' i a) :
    AlignedScope C' is xs := by
  induction h with
  | nil => exact .nil
  | @cons p q is xs hpq hrest ih =>
    have hp : C' p.2 q.2 := hC p.2 List.mem_cons_self q.2 hpq.2
    exact .cons ⟨hpq.1, hp⟩ (ih fun i hi => hC i (List.mem_cons_of_mem _ hi))

theorem AlignedScope.lookup {is : List (String × ι)} {xs : List (String × α)}
    (h : AlignedScope C is xs) (name : String) :
    (is.lookup name = none ∧ xs.lookup name = none) ∨
      ∃ i a, is.lookup name = some i ∧ xs.lookup name = some a ∧ C i a := by
  induction h with
  | nil => exact .inl ⟨rfl, rfl⟩
  | @cons p q is xs hpq hrest ih =>
    rcases p with ⟨n, i⟩
    rcases q with ⟨m, a⟩
    obtain ⟨rfl, hC⟩ : n = m ∧ C i a := hpq
    rw [List.lookup_cons, List.lookup_cons]
    by_cases hn : name == n
    · rw [hn]
      exact .inr ⟨i, a, rfl, rfl, hC⟩
    · rw [Bool.eq_false_iff.mpr hn]
      exact ih

theorem AlignedScope.update {is : List (String × ι)} {xs : List (String × α)} {name : String} {i : ι}
    {a : α} (h : AlignedScope C is xs) (hi : is.lookup name = some i)
    (hnodup : (is.map Prod.snd).Nodup) (ha : C' i a) (hC : ∀ j, j ≠ i → ∀ b, C j b → C' j b) :
    AlignedScope C' is (Scopes.update name a xs) := by
  induction h with
  | nil => cases hi
  | @cons p q is xs hpq hrest ih =>
    rcases p with ⟨n, j⟩
    rcases q with ⟨m, b⟩
    obtain ⟨rfl, hjb⟩ : n = m ∧ C j b := hpq
    obtain ⟨hj, hnodup⟩ := List.nodup_cons.mp hnodup
    rw [List.lookup_cons] at hi
    unfold Scopes.update
    by_cases hn : name = n
    · rw [if_pos hn]
      rw [beq_iff_eq.mpr hn] at hi
      obtain rfl : j = i := Option.some.inj hi
      refine .cons ⟨rfl, ha⟩ (AlignedScope.mono hrest fun k hk => hC k ?_)
      rintro rfl
      exact hj hk
    · rw [if_neg hn]
      rw [beq_false_of_ne hn] at hi
      have hne : j ≠ i := by
        rintro rfl
        exact hj (Scopes.mem_of_lookup hi)
      exact .cons ⟨rfl, hC j hne b hjb⟩ (ih hi hnodup)

namespace Aligned

variable {is : Scopes ι} {xs : Scopes α} {name : String} {i : ι} {a : α}

theorem mono (h : Aligned C is xs) (hC : ∀ i ∈ is.all, ∀ a, C i a → C' i a) :
    Aligned C' is xs := by
  induction h with
  | nil => exact .nil
  | @cons scope ys is xs hscope hrest ih =>
    rw [Scopes.all_cons] at hC
    exact .cons (hscope.mono fun i hi => hC i (List.mem_append_left _ hi))
      (ih fun i hi => hC i (List.mem_append_right _ hi))

theorem read? (h : Aligned C is xs) (name : String) :
    (is.read? name = none ∧ xs.read? name = none) ∨
      ∃ i a, is.read? name = some i ∧ xs.read? name = some a ∧ C i a := by
  induction h with
  | nil => exact .inl ⟨rfl, rfl⟩
  | cons hscope _ ih =>
    rcases hscope.lookup name with ⟨h₁, h₂⟩ | ⟨i, a, h₁, h₂, hC⟩
    · rw [Scopes.read?_outer h₁, Scopes.read?_outer h₂]
      exact ih
    · exact .inr ⟨i, a, Scopes.read?_inner h₁ _, Scopes.read?_inner h₂ _, hC⟩

theorem exists_of_read? (h : Aligned C is xs) (hi : is.read? name = some i) :
    ∃ a, xs.read? name = some a ∧ C i a := by
  rcases h.read? name with ⟨h₁, -⟩ | ⟨j, a, h₁, h₂, hC⟩
  · rw [hi] at h₁
    cases h₁
  · rw [hi] at h₁
    obtain rfl := Option.some.inj h₁
    exact ⟨a, h₂, hC⟩

theorem read?_none (h : Aligned C is xs) (hi : is.read? name = none) : xs.read? name = none := by
  rcases h.read? name with ⟨-, h₂⟩ | ⟨j, a, h₁, -, -⟩
  · exact h₂
  · rw [hi] at h₁
    cases h₁

theorem enter (h : Aligned C is xs) : Aligned C is.enter xs.enter := .cons .nil h

theorem leave (h : Aligned C is xs) : Aligned C is.leave xs.leave := by
  cases h with
  | nil => exact .nil
  | cons _ hrest => exact hrest

theorem declare (h : Aligned C is xs) (ha : C i a) (name : String) :
    Aligned C (is.declare name i) (xs.declare name a) := by
  cases h with
  | nil => exact .cons (.cons ⟨rfl, ha⟩ .nil) .nil
  | cons hscope hrest => exact .cons (.cons ⟨rfl, ha⟩ hscope) hrest

theorem assign (h : Aligned C is xs) (hi : is.read? name = some i) (hnodup : is.all.Nodup)
    (ha : C' i a) (hC : ∀ j, j ≠ i → ∀ b, C j b → C' j b) :
    Aligned C' is (xs.assign name a) := by
  induction h with
  | nil => cases hi
  | @cons scope ys is xs hscope hrest ih =>
    rw [Scopes.all_cons] at hnodup
    obtain ⟨hnodup₁, hnodup₂, hdisjoint⟩ := List.nodup_append.mp hnodup
    unfold Scopes.assign
    rcases hscope.lookup name with ⟨h₁, h₂⟩ | ⟨j, b, h₁, h₂, -⟩
    · rw [Scopes.read?_outer h₁] at hi
      rw [h₂, if_neg (by simp)]
      refine .cons (hscope.mono fun j hj => hC j ?_) (ih hi hnodup₂)
      exact hdisjoint j hj i (Scopes.mem_of_read? hi)
    · rw [Scopes.read?_inner h₁] at hi
      obtain rfl : j = i := Option.some.inj hi
      rw [h₂, if_pos (by simp)]
      refine .cons (hscope.update h₁ hnodup₁ ha hC) (Aligned.mono hrest fun k hk => hC k ?_)
      exact (hdisjoint j (Scopes.mem_of_lookup h₁) k hk).symm

end Aligned

theorem AlignedScope.update_both {is : List (String × ι)} {xs : List (String × α)} {i : ι} {a : α}
    (h : AlignedScope C is xs) (hC : C i a) (name : String) :
    AlignedScope C (Scopes.update name i is) (Scopes.update name a xs) := by
  induction h with
  | nil => exact .nil
  | @cons p q is xs hpq hrest ih =>
    rcases p with ⟨n, j⟩
    rcases q with ⟨m, b⟩
    obtain ⟨rfl, hjb⟩ : n = m ∧ C j b := hpq
    unfold Scopes.update
    by_cases hn : name = n
    · rw [if_pos hn, if_pos hn]
      exact .cons ⟨rfl, hC⟩ hrest
    · rw [if_neg hn, if_neg hn]
      exact .cons ⟨rfl, hjb⟩ ih

theorem Aligned.assign_both {is : Scopes ι} {xs : Scopes α} {i : ι} {a : α} (h : Aligned C is xs)
    (hC : C i a) (name : String) : Aligned C (is.assign name i) (xs.assign name a) := by
  induction h with
  | nil => exact .nil
  | @cons scope ys is xs hscope hrest ih =>
    unfold Scopes.assign
    rcases hscope.lookup name with ⟨h₁, h₂⟩ | ⟨j, b, h₁, h₂, -⟩
    · rw [h₁, h₂, if_neg (by simp), if_neg (by simp)]
      exact .cons hscope ih
    · rw [h₁, h₂, if_pos Option.isSome_some, if_pos Option.isSome_some]
      exact .cons (hscope.update_both hC name) hrest

end

end ReportTemplate
