import ReportTemplate.Library.Core
import ReportTemplate.Library.Collections

/-!
# ReportTemplate.Proofs.Library.Integers — integer arithmetic is exact or refused

What an operation on integers gives is told by the whole number that it stands for: the operation
has this number as its value, or it is refused because the number has more than 64 bits.  Everything
rests on `Value.exact`; `sum` is the one operation that looks at more than its result, since it stops
at the first partial sum that is no integer of the language.
-/

namespace ReportTemplate.Library

/-! ### Whole numbers of 64 bits -/

/-- A whole number that is an integer of the language. -/
def Has64Bits (n : Int) : Prop := ∃ m : Int64, m.toInt = n

theorem has64Bits_iff {n : Int} :
    Has64Bits n ↔ Int64.minValue.toInt ≤ n ∧ n ≤ Int64.maxValue.toInt := by
  constructor
  · rintro ⟨m, rfl⟩
    exact ⟨m.minValue_le_toInt, m.toInt_le⟩
  · rintro ⟨low, high⟩
    have h63 : Int64.maxValue.toInt < 2 ^ 63 := by decide
    exact ⟨Int64.ofInt n, Int64.toInt_ofInt_of_le low (by omega)⟩

theorem has64Bits_toInt (m : Int64) : Has64Bits m.toInt := ⟨m, rfl⟩

/-- The result is the whole number `n` where `defined` holds, and else the refusal `why`. -/
structure Computes (defined : Prop) (n : Int) (why : Refusal) (r : Except Refusal Value) :
    Prop where
  value : defined → ∃ m : Int64, m.toInt = n ∧ r = .ok (.int m)
  refused : ¬defined → r = .error why

theorem Computes.of_ok {defined : Prop} {n : Int} {why : Refusal} {m : Int64}
    (h : Computes defined n why (.ok (.int m))) : defined ∧ m.toInt = n := by
  by_cases hd : defined
  · obtain ⟨k, hk, hv⟩ := h.value hd
    obtain rfl : m = k := by simpa using hv
    exact ⟨hd, hk⟩
  · exact absurd (h.refused hd) (by simp)

theorem ofInt?_toInt (m : Int64) : Value.ofInt? m.toInt = some m := by
  rw [Value.ofInt?, if_pos (has64Bits_iff.1 (has64Bits_toInt m)), Int64.ofInt_toInt]

theorem ofInt?_eq_none {n : Int} (h : ¬Has64Bits n) : Value.ofInt? n = none := by
  rw [Value.ofInt?, if_neg fun bounds => h (has64Bits_iff.2 bounds)]

theorem computes_exact (n : Int) : Computes (Has64Bits n) n .overflow (Value.exact n) where
  value := by
    rintro ⟨m, rfl⟩
    exact ⟨m, rfl, by rw [Value.exact, ofInt?_toInt]⟩
  refused h := by rw [Value.exact, ofInt?_eq_none h]

/-! ### Division -/

/-- Why a division gives no value. -/
def undivided (b : Int64) : Refusal := if b = 0 then .divisionByZero else .overflow

theorem toInt_ne_zero {b : Int64} (hb : b ≠ 0) : b.toInt ≠ 0 := fun h =>
  hb (Int64.toInt_inj.1 (h.trans Int64.toInt_zero.symm))

theorem natAbs_tmod_lt (a : Int64) {b : Int64} (hb : b ≠ 0) :
    (a.toInt.tmod b.toInt).natAbs < b.toInt.natAbs := by
  rw [Int.natAbs_tmod]
  exact Nat.mod_lt _ (Int.natAbs_pos.2 (toInt_ne_zero hb))

theorem has64Bits_tmod (a : Int64) {b : Int64} (hb : b ≠ 0) : Has64Bits (a.toInt.tmod b.toInt) := by
  have hlt := natAbs_tmod_lt a hb
  have low := b.minValue_le_toInt
  have high := b.toInt_le
  have hmin : Int64.minValue.toInt = -2 ^ 63 := by decide
  have hmax : Int64.maxValue.toInt = 2 ^ 63 - 1 := by decide
  rw [has64Bits_iff]
  omega

theorem computes_divided {b : Int64} {defined : Prop} {n : Int} {r : Except Refusal Value}
    (h : b ≠ 0 → Computes defined n .overflow r) :
    Computes (b ≠ 0 ∧ defined) n (undivided b)
      (if b = 0 then .error .divisionByZero else r) := by
  rw [undivided]
  by_cases hb : b = 0
  · rw [if_pos hb, if_pos hb]
    exact ⟨fun ⟨nonzero, _⟩ => absurd hb nonzero, fun _ => rfl⟩
  · rw [if_neg hb, if_neg hb]
    exact ⟨fun ⟨_, hd⟩ => (h hb).value hd, fun no => (h hb).refused fun hd => no ⟨hb, hd⟩⟩

theorem computes_div (a b : Int64) :
    Computes (b ≠ 0 ∧ Has64Bits (a.toInt.tdiv b.toInt)) (a.toInt.tdiv b.toInt) (undivided b)
      (Value.onInts .div a b) :=
  computes_divided fun _ => computes_exact _

/-- The remainder always has 64 bits; it is refused with the quotient. -/
theorem computes_rem (a b : Int64) :
    Computes (b ≠ 0 ∧ Has64Bits (a.toInt.tdiv b.toInt)) (a.toInt.tmod b.toInt) (undivided b)
      (Value.onInts .rem a b) := by
  refine computes_divided fun hb => ⟨?_, fun none => by rw [ofInt?_eq_none none]⟩
  rintro ⟨quotient, hq⟩
  rw [← hq, ofInt?_toInt]
  exact (computes_exact _).value (has64Bits_tmod a hb)

/-- Quotient and remainder, where both have a value, make up the dividend. -/
theorem div_mul_add_rem {a b q r : Int64} (hq : Value.onInts .div a b = .ok (.int q))
    (hr : Value.onInts .rem a b = .ok (.int r)) :
    a.toInt = q.toInt * b.toInt + r.toInt ∧ r.toInt.natAbs < b.toInt.natAbs := by
  obtain ⟨⟨hb, -⟩, quotient⟩ := (hq ▸ computes_div a b).of_ok
  obtain ⟨-, remainder⟩ := (hr ▸ computes_rem a b).of_ok
  rw [quotient, remainder]
  exact ⟨(Int.tdiv_mul_add_tmod _ _).symm, natAbs_tmod_lt a hb⟩

/-! ### Sums -/

/-- The sum of whole numbers that are integers of the language. -/
def total : List Int64 → Int
  | [] => 0
  | n :: ns => n.toInt + total ns

theorem total_cons (n : Int64) (ns : List Int64) : total (n :: ns) = n.toInt + total ns := rfl

/-- Every sum on the way, behind those already added, is an integer of the language. -/
def PartialSums (before : Int) (ns : List Int64) : Prop :=
  ∀ k ≤ ns.length, Has64Bits (before + total (ns.take k))

theorem partialSums_cons {before : Int} {n : Int64} {ns : List Int64} :
    PartialSums before (n :: ns) ↔ Has64Bits before ∧ PartialSums (before + n.toInt) ns := by
  constructor
  · intro h
    refine ⟨by simpa [total] using h 0 (Nat.zero_le _), fun k hk => ?_⟩
    have := h (k + 1) (Nat.succ_le_succ hk)
    rwa [List.take_succ_cons, total_cons, ← Int.add_assoc] at this
  · rintro ⟨first, rest⟩ k hk
    cases k with
    | zero => simpa [total] using first
    | succ k =>
      rw [List.take_succ_cons, total_cons, ← Int.add_assoc]
      exact rest k (Nat.le_of_succ_le_succ hk)

/-- Behind what was added before, `sumInts` adds up as long as every sum on the way has 64 bits. -/
theorem computes_sumInts (before : Int64) (ns : List Int64) :
    Computes (PartialSums before.toInt ns) (before.toInt + total ns) .overflow
      (Collections.sumInts before (ns.map Value.int)) := by
  induction ns generalizing before with
  | nil =>
    refine ⟨fun _ => ⟨before, by simp [total], rfl⟩, fun h => absurd ?_ h⟩
    intro k hk
    obtain rfl := Nat.le_zero.1 hk
    exact ⟨before, by simp [total]⟩
  | cons n ns ih =>
    rw [partialSums_cons, total_cons, ← Int.add_assoc, List.map_cons, Collections.sumInts]
    dsimp only [expectInt]
    by_cases next : Has64Bits (before.toInt + n.toInt)
    · obtain ⟨m, hm⟩ := next
      rw [← hm, ofInt?_toInt]
      exact ⟨fun h => (ih m).value h.2, fun h => (ih m).refused fun rest => h ⟨⟨before, rfl⟩, rest⟩⟩
    · rw [ofInt?_eq_none next]
      refine ⟨fun h => absurd ?_ next, fun _ => rfl⟩
      simpa [total] using h.2 0 (Nat.zero_le _)

theorem sum_ints (ns : List Int64) :
    Collections.sum (.list (ns.map Value.int)) = Collections.sumInts 0 (ns.map Value.int) := by
  have : (ns.map Value.int).all Collections.isInt = true := by
    simp [Collections.isInt]
  simp only [Collections.sum, expectList, bind, Except.bind, this, if_true]

/-! ### The law -/

/-- **Integer arithmetic never wraps.** -/
theorem integers_exact (a b : Int64) (ns : List Int64) :
    Computes (Has64Bits (a.toInt + b.toInt)) (a.toInt + b.toInt) .overflow
        (Value.binary .add (.int a) (.int b)) ∧
      Computes (Has64Bits (a.toInt - b.toInt)) (a.toInt - b.toInt) .overflow
        (Value.binary .sub (.int a) (.int b)) ∧
      Computes (Has64Bits (a.toInt * b.toInt)) (a.toInt * b.toInt) .overflow
        (Value.binary .mul (.int a) (.int b)) ∧
      Computes (b ≠ 0 ∧ Has64Bits (a.toInt.tdiv b.toInt)) (a.toInt.tdiv b.toInt) (undivided b)
        (Value.binary .div (.int a) (.int b)) ∧
      Computes (b ≠ 0 ∧ Has64Bits (a.toInt.tdiv b.toInt)) (a.toInt.tmod b.toInt) (undivided b)
        (Value.binary .rem (.int a) (.int b)) ∧
      (∀ q r : Int64, Value.binary .div (.int a) (.int b) = .ok (.int q) →
        Value.binary .rem (.int a) (.int b) = .ok (.int r) →
        a.toInt = q.toInt * b.toInt + r.toInt ∧ r.toInt.natAbs < b.toInt.natAbs) ∧
      Computes (Has64Bits (-a.toInt)) (-a.toInt) .overflow (Value.unary .negate (.int a)) ∧
      Computes (Has64Bits a.toInt.natAbs) a.toInt.natAbs .overflow (Core.abs (.int a)) ∧
      Computes (∀ k ≤ ns.length, Has64Bits (total (ns.take k))) (total ns) .overflow
        (Collections.sum (.list (ns.map Value.int))) := by
  refine ⟨computes_exact _, computes_exact _, computes_exact _, computes_div a b, computes_rem a b,
    fun _ _ => div_mul_add_rem, computes_exact _, computes_exact _, ?_⟩
  have := computes_sumInts 0 ns
  rw [sum_ints]
  simpa only [PartialSums, Int64.toInt_zero, Int.zero_add] using this

example : Value.binary .rem (.int Int64.minValue) (.int (-1)) = .error .overflow := by rfl

/-- A sum that leaves the range on the way is refused, although it comes back. -/
example : Collections.sum (.list [.int Int64.maxValue, .int 1, .int (-1)]) = .error .overflow := by
  rfl

end ReportTemplate.Library
