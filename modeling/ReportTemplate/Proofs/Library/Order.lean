import Mathlib.Data.List.Chain
import ReportTemplate.Library.Collections
import ReportTemplate.Library.Core
import ReportTemplate.Proofs.Library.Stable
import ReportTemplate.Proofs.Number.Nearest
import ReportTemplate.Value.Operator

/-!
# ReportTemplate.Proofs.Library.Order — the order of integers in the library

The operators of the language compare integers exactly.  The library compares the floats nearest to them,
so integers beyond 53 bits with the same nearest float count as equal there: `min` and `max` then give their
first argument, and `sort` leaves such integers in the order in which they come.
-/

namespace ReportTemplate.Library

open Number (Binary64 nearest)

/-! ## The two orders -/

/-- `a <= b` in the language. -/
def AtMost (a b : Int64) : Prop := Value.binary .lessEqual (.int a) (.int b) = .ok (.bool true)

/-- `a >= b` in the language. -/
def AtLeast (a b : Int64) : Prop := Value.binary .greaterEqual (.int a) (.int b) = .ok (.bool true)

theorem atMost_iff {a b : Int64} : AtMost a b ↔ a.toInt ≤ b.toInt := by
  have hop : Value.binary .lessEqual (.int a) (.int b) =
      .ok (.bool (compare a.toInt b.toInt).isLE) := rfl
  rw [AtMost, hop]
  simp [Int.isLE_compare]

theorem atLeast_iff {a b : Int64} : AtLeast a b ↔ b.toInt ≤ a.toInt := by
  have hop : Value.binary .greaterEqual (.int a) (.int b) =
      .ok (.bool (compare a.toInt b.toInt).isGE) := rfl
  rw [AtLeast, hop]
  simp [Int.isGE_compare]

instance (a b : Int64) : Decidable (AtMost a b) := decidable_of_iff _ atMost_iff.symm

instance (a b : Int64) : Decidable (AtLeast a b) := decidable_of_iff _ atLeast_iff.symm

/-- The whole number that the float nearest to an integer stands for. -/
def nearestFloat (a : Int64) : Int := nearest a.toInt

theorem nearestFloat_mono {a b : Int64} (h : a.toInt ≤ b.toInt) : nearestFloat a ≤ nearestFloat b :=
  Number.nearest_mono h

theorem placed (a : Int64) : Number.Placed (Binary64.ofInt a.toInt) (nearestFloat a) := by
  have hlow := Int64.le_toInt a
  have hhigh := Int64.toInt_lt a
  exact Number.placed_ofInt (by omega)

/-! ## The less and the greater of two -/

theorem min_ints (a b : Int64) : Core.min (.int a) (.int b) =
    .ok (.int (if nearestFloat a ≤ nearestFloat b then a else b)) := by
  have hcmp := (placed b).compare? (placed a)
  have hmin : Core.min (.int a) (.int b) = .ok (if (Binary64.ofInt b.toInt).compare?
      (Binary64.ofInt a.toInt) = some .lt then .int b else .int a) := rfl
  rw [hmin, hcmp]
  simp only [Option.some.injEq, Int.compare_eq_lt]
  split_ifs <;> first | rfl | omega

theorem max_ints (a b : Int64) : Core.max (.int a) (.int b) =
    .ok (.int (if nearestFloat b ≤ nearestFloat a then a else b)) := by
  have hcmp := (placed b).compare? (placed a)
  have hmax : Core.max (.int a) (.int b) = .ok (if (Binary64.ofInt b.toInt).compare?
      (Binary64.ofInt a.toInt) = some .gt then .int b else .int a) := rfl
  rw [hmax, hcmp]
  simp only [Option.some.injEq, Int.compare_eq_gt]
  split_ifs <;> first | rfl | omega

/-- The choice by nearest floats is the choice by an exact order unless it is a tie. -/
theorem choice_iff {a b : Int64} {P Q : Prop} [Decidable P] [Decidable Q] (hPQ : P → Q)
    (hQ : ¬ P → Q → nearestFloat a = nearestFloat b) (hne : ¬ P → a ≠ b)
    (htie : nearestFloat a = nearestFloat b → Q) :
    (if Q then a else b) = (if P then a else b) ↔ P ∨ nearestFloat a ≠ nearestFloat b := by
  by_cases hP : P
  · simp [hP, hPQ hP]
  · by_cases hq : Q
    · simp [hP, hq, hQ hP hq, hne hP]
    · have hno : nearestFloat a ≠ nearestFloat b := fun h => hq (htie h)
      simp [hP, hq, hno]

theorem min_exact_iff (a b : Int64) :
    Core.min (.int a) (.int b) = .ok (.int (if AtMost a b then a else b)) ↔
      AtMost a b ∨ nearestFloat a ≠ nearestFloat b := by
  rw [min_ints, Except.ok.injEq, Value.int.injEq]
  simp only [atMost_iff]
  refine choice_iff nearestFloat_mono (fun hgt hle => ?_) (fun hgt heq => ?_) fun h => h.le
  · have hmono := nearestFloat_mono (a := b) (b := a) (by omega)
    omega
  · exact hgt (heq ▸ Int.le_refl _)

theorem max_exact_iff (a b : Int64) :
    Core.max (.int a) (.int b) = .ok (.int (if AtLeast a b then a else b)) ↔
      AtLeast a b ∨ nearestFloat a ≠ nearestFloat b := by
  rw [max_ints, Except.ok.injEq, Value.int.injEq]
  simp only [atLeast_iff]
  refine choice_iff nearestFloat_mono (fun hlt hle => ?_) (fun hlt heq => ?_) fun h => h.ge
  · have hmono := nearestFloat_mono (a := a) (b := b) (by omega)
    omega
  · exact hlt (heq ▸ Int.le_refl _)

/-! ## Sorting -/

/-- The comparison by nearest floats. -/
def nearestLe (a b : Int64) : Bool := nearestFloat a ≤ nearestFloat b

theorem nearestLe_trans (a b c : Int64) (h : nearestLe a b = true) (h' : nearestLe b c = true) :
    nearestLe a c = true := by
  simp only [nearestLe, decide_eq_true_eq] at *
  omega

theorem nearestLe_total (a b : Int64) : (nearestLe a b || nearestLe b a) = true := by
  simp only [nearestLe, Bool.or_eq_true, decide_eq_true_eq]
  omega

theorem sort_ints (items : List Int64) : Collections.sort (.list (items.map .int)) =
    .ok (.list ((items.mergeSort nearestLe).map .int)) := by
  have hkey (a b : Int64) : nearestLe a b =
      decide (Collections.numberKey (.int a) ≤ Collections.numberKey (.int b)) := by
    have hiff := (placed a).orderKey_le_iff (placed b)
    exact (decide_eq_decide.mpr hiff).symm
  have hall : ((items.map Value.int).all fun v => v.toBinary64?.isSome) = true := by
    simp [Value.toBinary64?]
  have hsort : Collections.sort (.list (items.map .int)) = .ok (.list
      ((items.map .int).mergeSort fun a b => Collections.numberKey a ≤ Collections.numberKey b)) := by
    show (if _ then _ else _) = _
    rw [if_pos hall]
    rfl
  have hmap : (items.mergeSort nearestLe).map Value.int = (items.map Value.int).mergeSort
      fun a b => Collections.numberKey a ≤ Collections.numberKey b :=
    List.map_mergeSort fun a _ b _ => hkey a b
  rw [hsort, hmap]

/-- Integers with the same nearest float keep their order. -/
theorem filter_sorted (items : List Int64) (c : Int) :
    (items.mergeSort nearestLe).filter (nearestFloat · = c) = items.filter (nearestFloat · = c) :=
  (sortedBy_mergeSort nearestFloat items).stable c

/-- The sorted list rises in the exact order if and only if no two integers with the same nearest float
come in falling order. -/
theorem chain_sorted_iff (items : List Int64) :
    (items.mergeSort nearestLe).IsChain AtMost ↔
      items.Pairwise fun a b => nearestFloat a = nearestFloat b → AtMost a b := by
  have htrans : Trans AtMost AtMost AtMost := ⟨fun h h' => by
    rw [atMost_iff] at *
    omega⟩
  rw [List.isChain_iff_pairwise, List.pairwise_iff_forall_sublist, List.pairwise_iff_forall_sublist]
  -- A pair with the same nearest float stands in the list as it stands in the sorted one.
  have hsame {a b : Int64} {l l' : List Int64} (hl : l.filter (nearestFloat · = nearestFloat b) =
      l'.filter (nearestFloat · = nearestFloat b)) (heq : nearestFloat a = nearestFloat b)
      (hsub : [a, b].Sublist l) : [a, b].Sublist l' := by
    have hfiltered := hsub.filter (nearestFloat · = nearestFloat b)
    rw [hl] at hfiltered
    have hpair : [a, b].filter (nearestFloat · = nearestFloat b) = [a, b] := by simp [heq]
    rw [hpair] at hfiltered
    exact hfiltered.trans List.filter_sublist
  constructor
  · intro hsorted a b hsub heq
    exact hsorted (hsame (filter_sorted items _).symm heq hsub)
  · intro hitems a b hsub
    by_cases heq : nearestFloat a = nearestFloat b
    · exact hitems (hsame (filter_sorted items _) heq hsub) heq
    · have hrising := (sortedBy_mergeSort nearestFloat items).rising
      have hle : nearestFloat a ≤ nearestFloat b :=
        List.pairwise_iff_forall_sublist.mp hrising hsub
      rw [atMost_iff]
      by_contra hgt
      have hmono := nearestFloat_mono (a := b) (b := a) (by omega)
      omega

/-- **The order of integers in the library** is that of their nearest floats.  So `min` and `max` choose
as the operators of the language do, if and only if the arguments stand in the order asked for or their
nearest floats differ.  `sort` gives the permutation that rises by nearest floats and keeps the order of
those that have the same one; it rises in the order of `<=`, if and only if they come in rising order. -/
theorem order_of_ints (a b : Int64) (items : List Int64) :
    (Core.min (.int a) (.int b) = .ok (.int (if AtMost a b then a else b)) ↔
      AtMost a b ∨ nearestFloat a ≠ nearestFloat b) ∧
    (Core.max (.int a) (.int b) = .ok (.int (if AtLeast a b then a else b)) ↔
      AtLeast a b ∨ nearestFloat a ≠ nearestFloat b) ∧
    ∃ sorted : List Int64, Collections.sort (.list (items.map .int)) = .ok (.list (sorted.map .int)) ∧
      sorted.Perm items ∧
      sorted.Pairwise (fun x y => nearestFloat x ≤ nearestFloat y) ∧
      (∀ c, sorted.filter (nearestFloat · = c) = items.filter (nearestFloat · = c)) ∧
      (sorted.IsChain AtMost ↔
        items.Pairwise fun x y => nearestFloat x = nearestFloat y → AtMost x y) := by
  refine ⟨min_exact_iff a b, max_exact_iff a b, items.mergeSort nearestLe, sort_ints items,
    List.mergeSort_perm items nearestLe, ?_, filter_sorted items, chain_sorted_iff items⟩
  have hpairs := List.pairwise_mergeSort nearestLe_trans nearestLe_total items
  exact hpairs.imp fun h => of_decide_eq_true h

/-- The two neighbours that have the same nearest float first: `min` does not give the less, and `sort`
leaves them in falling order. -/
theorem order_beyond_53_bits :
    nearestFloat 9007199254740993 = nearestFloat 9007199254740992 ∧
      ¬ AtMost 9007199254740993 9007199254740992 ∧
      Core.min (.int 9007199254740993) (.int 9007199254740992) = .ok (.int 9007199254740993) ∧
      Collections.sort (.list [.int 9007199254740993, .int 9007199254740992]) =
        .ok (.list [.int 9007199254740993, .int 9007199254740992]) := by
  have hsame : nearestFloat 9007199254740993 = nearestFloat 9007199254740992 := by decide +kernel
  refine ⟨hsame, ?_, ?_, ?_⟩
  · rw [atMost_iff]
    decide
  · rw [min_ints, hsame, if_pos (Int.le_refl _)]
  · have hsort := sort_ints [9007199254740993, 9007199254740992]
    have hle : nearestLe 9007199254740993 9007199254740992 = true := by
      rw [nearestLe, hsame]
      exact decide_eq_true (Int.le_refl _)
    simpa [List.mergeSort, hle] using hsort

end ReportTemplate.Library
