import Mathlib.Tactic.Common
import ReportTemplate.Proofs.Syntax.Reads

/-!
# ReportTemplate.Proofs.Syntax.Laws — parsers as a monad

Failures are merged associatively, so that the order in which steps are grouped does not matter, and
parsers obey the laws of a monad.
-/

namespace ReportTemplate.Syntax

namespace Failure

@[simp] theorem merge_none (e : Option Failure) : merge e none = e := by
  cases e <;> rfl

@[simp] theorem none_merge (e : Option Failure) : merge none e = e := rfl

/-- What is wanted by either list, that of the first in front. -/
theorem wanted_assoc (as bs cs : List String) :
    (as ++ bs.filter fun w => !as.contains w) ++
        cs.filter (fun w => !(as ++ bs.filter fun w => !as.contains w).contains w) =
      as ++ (bs ++ cs.filter fun w => !bs.contains w).filter fun w => !as.contains w := by
  rw [List.filter_append, List.filter_filter, List.append_assoc]
  congr 2
  refine List.filter_congr fun w _ => ?_
  rw [Bool.eq_iff_iff]
  simp only [List.contains_eq_mem, List.mem_append, List.mem_filter, Bool.not_eq_eq_eq_not,
    Bool.not_true, decide_eq_false_iff_not, Bool.and_eq_true]
  tauto

theorem merge_of_lt {i j : Nat} (h : i < j) (as bs : List String) :
    merge (some ⟨i, as⟩) (some ⟨j, bs⟩) = some ⟨j, bs⟩ := by
  unfold merge
  exact if_pos h

theorem merge_of_gt {i j : Nat} (h : j < i) (as bs : List String) :
    merge (some ⟨i, as⟩) (some ⟨j, bs⟩) = some ⟨i, as⟩ := by
  unfold merge
  dsimp only
  rw [if_neg (Nat.lt_asymm h), if_pos h]

theorem merge_of_eq (i : Nat) (as bs : List String) :
    merge (some ⟨i, as⟩) (some ⟨i, bs⟩) =
      some ⟨i, as ++ bs.filter fun w => !as.contains w⟩ := by
  unfold merge
  dsimp only
  rw [if_neg (Nat.lt_irrefl i), if_neg (Nat.lt_irrefl i)]

theorem merge_assoc (a b c : Option Failure) :
    merge (merge a b) c = merge a (merge b c) := by
  rcases a with _ | ⟨i, as⟩
  · rfl
  rcases b with _ | ⟨j, bs⟩
  · rfl
  rcases c with _ | ⟨k, cs⟩
  · rw [merge_none, merge_none]
  rcases Nat.lt_trichotomy i j with hij | rfl | hij
  · rw [merge_of_lt hij]
    rcases Nat.lt_trichotomy j k with hjk | rfl | hjk
    · rw [merge_of_lt hjk, merge_of_lt (Nat.lt_trans hij hjk)]
    · rw [merge_of_eq, merge_of_lt hij]
    · rw [merge_of_gt hjk, merge_of_lt hij]
  · rw [merge_of_eq]
    rcases Nat.lt_trichotomy i k with hik | rfl | hik
    · rw [merge_of_lt hik, merge_of_lt hik, merge_of_lt hik]
    · rw [merge_of_eq, merge_of_eq, merge_of_eq, wanted_assoc]
    · rw [merge_of_gt hik, merge_of_gt hik, merge_of_eq]
  · rw [merge_of_gt hij]
    rcases Nat.lt_trichotomy j k with hjk | rfl | hjk
    · rw [merge_of_lt hjk]
    · rw [merge_of_gt hij, merge_of_eq, merge_of_gt hij]
    · rw [merge_of_gt hjk, merge_of_gt (Nat.lt_trans hjk hij), merge_of_gt hij]

end Failure

namespace Parser

variable {α β : Type}

theorem bind_pure_self (p : Parser α) : (p >>= pure) = p := by
  funext c
  show andThen p done c = p c
  unfold andThen done
  rcases p c with ⟨_ | ⟨a, c₁⟩, e⟩
  · rfl
  · exact Prod.ext rfl (Failure.merge_none e)

theorem pure_bind_eq (a : α) (f : α → Parser β) : (pure a >>= f) = f a := rfl

theorem bind_bind {γ : Type} (p : Parser α) (f : α → Parser β) (g : β → Parser γ) :
    ((p >>= f) >>= g) = (p >>= fun a => f a >>= g) := by
  funext c
  show andThen (andThen p f) g c = andThen p (fun a => andThen (f a) g) c
  unfold andThen
  rcases p c with ⟨_ | ⟨a, c₁⟩, e⟩
  · rfl
  dsimp only
  rcases f a c₁ with ⟨_ | ⟨b, c₂⟩, e'⟩
  · rfl
  · exact Prod.ext rfl (Failure.merge_assoc _ _ _)

end Parser

end ReportTemplate.Syntax
