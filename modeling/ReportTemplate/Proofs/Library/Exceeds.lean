import ReportTemplate.Proofs.Library.Sizes

/-!
# ReportTemplate.Proofs.Library.Exceeds — what checks no size can give too much

Each of the functions that check no size gives, for some arguments within the limits, a text or a list
that is too large.
-/

namespace ReportTemplate

open Value (bounded_list bounded_str tame_bounded)

namespace Text

theorem byteSize_replicate (n : Nat) (c : Char) :
    byteSize (List.replicate n c) = n * c.utf8Size := by
  induction n with
  | zero => rw [Nat.zero_mul]; rfl
  | succ n ih => rw [List.replicate_succ, byteSize_cons, ih, Nat.succ_mul, Nat.add_comm]

theorem byteSize_flatMap_replicate (f : Char → List Char) (n : Nat) (c : Char) :
    byteSize ((List.replicate n c).flatMap f) = n * byteSize (f c) := by
  induction n with
  | zero => rw [Nat.zero_mul]; rfl
  | succ n ih =>
    rw [List.replicate_succ, List.flatMap_cons, byteSize_append, ih, Nat.succ_mul, Nat.add_comm]

theorem byteSize_reverse (cs : List Char) : byteSize cs.reverse = byteSize cs := by
  induction cs with
  | nil => rfl
  | cons c cs ih =>
    rw [List.reverse_cons, byteSize_append, ih, byteSize_cons, byteSize_cons, byteSize_nil]
    omega

theorem byteSize_lowerFrom_replicate {c : Char} (hc : c ≠ 'Σ') (n : Nat) :
    ∀ before done : List Char, byteSize (Case.lowerFrom before done (List.replicate n c)) =
      byteSize done + n * byteSize (Case.lowerOf c) := by
  induction n with
  | zero =>
    intro before done
    rw [List.replicate_zero, Case.lowerFrom, byteSize_reverse, Nat.zero_mul, Nat.add_zero]
  | succ n ih =>
    intro before done
    rw [List.replicate_succ, Case.lowerFrom, if_neg hc, ih, List.reverseAux_eq, byteSize_append,
      byteSize_reverse, Nat.succ_mul]
    omega

/-- A text of separators has one piece more than it has separators. -/
theorem length_splitFrom_replicate (c : Char) (n : Nat) : ∀ (done : List (List Char))
    (piece : List Char),
    (splitFrom [c] done piece 0 (List.replicate n c)).length = done.length + n + 1 := by
  induction n with
  | zero =>
    intro done piece
    rw [List.replicate_zero, splitFrom, List.length_reverse, List.length_cons]
  | succ n ih =>
    intro done piece
    have hstarts : startsWith [c] (c :: List.replicate n c) = true := by
      simp [startsWith]
    rw [List.replicate_succ, splitFrom, if_neg (Nat.lt_irrefl 0), if_pos hstarts]
    rw [show [c].length - 1 = 0 from rfl, ih, List.length_cons]
    omega

theorem exists_text (n : Nat) : ∃ s : String, s.utf8ByteSize = n :=
  ⟨String.ofList (List.replicate n 'a'), by
    rw [utf8ByteSize_ofList, byteSize_replicate]
    exact Nat.mul_one n⟩

end Text

namespace Library

/-- A function gives something too large for some bounded arguments. -/
def Exceeds (g : Function) : Prop :=
  ∃ args r, (∀ a ∈ args, a.Bounded) ∧ g.call args = .ok r ∧ ¬ r.Fits

/-- A text that is as large as it may be. -/
theorem exists_large : ∃ s : String, s.utf8ByteSize = maxTextSize ∧ (Value.str s).Bounded := by
  obtain ⟨s, hs⟩ := Text.exists_text maxTextSize
  exact ⟨s, hs, bounded_str.mpr (Nat.le_of_eq hs)⟩

theorem bounded_pair {v : Value} (h : v.Bounded) : (Value.list [v, v]).Bounded :=
  bounded_list.mpr ⟨(by decide : 2 ≤ maxListLength),
    List.forall_mem_cons.mpr ⟨h, List.forall_mem_singleton.mpr h⟩⟩

/-- The text of a list with a large text in it twice. -/
theorem exists_textual : ∃ v : Value, v.Bounded ∧ maxTextSize < v.text.utf8ByteSize := by
  obtain ⟨s, hs, hbounded⟩ := exists_large
  refine ⟨.list [.str s, .str s], bounded_pair hbounded, ?_⟩
  have htext : (Value.list [.str s, .str s]).text = "" ++ "[" ++ s ++ ", " ++ s ++ "]" := rfl
  have hpos : 0 < maxTextSize := by decide
  rw [htext]
  simp only [String.utf8ByteSize_append, hs]
  omega

theorem Core.str_exceeds : Exceeds (.unary "str" str) := by
  obtain ⟨v, hv, htext⟩ := exists_textual
  exact ⟨[v], .str v.text, List.forall_mem_singleton.mpr hv, rfl, Nat.not_le_of_lt htext⟩

namespace Texts

/-- A text of characters that grow in another case. -/
theorem onText_exceeds (name : String) {f : List Char → List Char} {c : Char}
    (hc : c.utf8Size = 2) (hf : ∀ n, Text.byteSize (f (List.replicate n c)) = n * 3) :
    Exceeds (.unary name (onText f)) := by
  refine ⟨[.str (String.ofList (List.replicate (maxTextSize / 2) c))],
    .str (String.ofList (f (String.ofList (List.replicate (maxTextSize / 2) c)).toList)),
    List.forall_mem_singleton.mpr (bounded_str.mpr ?_), rfl, ?_⟩
  · rw [Text.utf8ByteSize_ofList, Text.byteSize_replicate, hc]
    decide
  · show ¬ _ ≤ _
    rw [Text.utf8ByteSize_ofList, String.toList_ofList, hf]
    decide

theorem upper_exceeds : Exceeds (.unary "upper" upper) := by
  refine onText_exceeds "upper" (c := 'ŉ') (by decide) fun n => ?_
  rw [Text.upper, Text.byteSize_flatMap_replicate]
  have hform : Text.byteSize (Text.Case.upperOf 'ŉ') = 3 := by decide
  rw [hform]

theorem lower_exceeds : Exceeds (.unary "lower" lower) := by
  refine onText_exceeds "lower" (c := 'İ') (by decide) fun n => ?_
  rw [Text.lower, Text.byteSize_lowerFrom_replicate (by decide)]
  have hform : Text.byteSize (Text.Case.lowerOf 'İ') = 3 := by decide
  rw [hform, Text.byteSize_nil, Nat.zero_add]

/-- A text stands in front of a character and behind it. -/
theorem replace_exceeds : Exceeds (.ternary "replace" replace) := by
  obtain ⟨s, hs, hbounded⟩ := exists_large
  refine ⟨[.str "a", .str "", .str s],
    .str (String.ofList (Text.replace "a".toList "".toList s.toList)), ?_, rfl, ?_⟩
  · simp only [List.forall_mem_cons, List.not_mem_nil]
    exact ⟨bounded_str.mpr (by decide), bounded_str.mpr (by decide), hbounded, nofun⟩
  · have htext : Text.replace "a".toList "".toList s.toList = s.toList ++ ('a' :: s.toList) := by
      simp [Text.replace]
    show ¬ _ ≤ _
    rw [Text.utf8ByteSize_ofList, htext, Text.byteSize_append, Text.byteSize_cons,
      Text.byteSize_toList, hs]
    decide

theorem split_exceeds : Exceeds (.binary "split" split) := by
  refine ⟨[.str (String.ofList (List.replicate maxListLength ',')), .str ","],
    .list ((Text.split (String.ofList (List.replicate maxListLength ',')).toList ",".toList).map
      fun piece => .str (String.ofList piece)), ?_, rfl, ?_⟩
  · refine List.forall_mem_cons.mpr ⟨bounded_str.mpr ?_, List.forall_mem_singleton.mpr
      (bounded_str.mpr (by decide))⟩
    rw [Text.utf8ByteSize_ofList, Text.byteSize_replicate]
    decide
  · show ¬ _ ≤ _
    have hlength := Text.length_splitFrom_replicate ',' maxListLength [] []
    rw [List.length_map, String.toList_ofList, Text.split, show ",".toList = [','] from rfl, hlength]
    decide

theorem join_exceeds : Exceeds (.binary "join" join) := by
  obtain ⟨s, hs, hbounded⟩ := exists_large
  refine ⟨[.list [.str s, .str s], .str ""],
    .str (String.intercalate "" ([Value.str s, .str s].map Value.text)), ?_, rfl, ?_⟩
  · exact List.forall_mem_cons.mpr ⟨bounded_pair hbounded,
      List.forall_mem_singleton.mpr (bounded_str.mpr (by decide))⟩
  · have htext : String.intercalate "" ([Value.str s, .str s].map Value.text) = s ++ s := by
      simp [String.intercalate_cons_cons, Value.text, Value.writeOn]
    show ¬ _ ≤ _
    rw [htext, String.utf8ByteSize_append, hs]
    decide

theorem padLeft_exceeds : Exceeds (.binary "pad_left" padLeft) := by
  obtain ⟨v, hv, htext⟩ := exists_textual
  refine ⟨[v, .int 0], .str (blanks v.text 0 ++ v.text), ?_, rfl, ?_⟩
  · exact List.forall_mem_cons.mpr ⟨hv, List.forall_mem_singleton.mpr
      (tame_bounded.int 0)⟩
  · show ¬ _ ≤ _
    rw [String.utf8ByteSize_append]
    omega

theorem padRight_exceeds : Exceeds (.binary "pad_right" padRight) := by
  obtain ⟨v, hv, htext⟩ := exists_textual
  refine ⟨[v, .int 0], .str (v.text ++ blanks v.text 0), ?_, rfl, ?_⟩
  · exact List.forall_mem_cons.mpr ⟨hv, List.forall_mem_singleton.mpr
      (tame_bounded.int 0)⟩
  · show ¬ _ ≤ _
    rw [String.utf8ByteSize_append]
    omega

end Texts

namespace Collections

theorem bounded_ones (n : Nat) : ∀ v ∈ List.replicate n (Value.int 1), v.Bounded :=
  fun _ hv => List.eq_of_mem_replicate hv ▸ tame_bounded.int 1

/-- One more item in a list that is as long as it may be. -/
theorem push_exceeds {items : List Value} (hitems : ∀ v ∈ items, v.Bounded)
    (hlength : items.length = maxListLength) {item : Value} (hitem : item.Bounded) :
    (∀ a ∈ [Value.list items, item], a.Bounded) ∧
      push (.list items) item = .ok (.list (items ++ [item])) ∧
      ¬ (Value.list (items ++ [item])).Fits := by
  refine ⟨List.forall_mem_cons.mpr ⟨bounded_list.mpr ⟨Nat.le_of_eq hlength, hitems⟩,
    List.forall_mem_singleton.mpr hitem⟩, rfl, ?_⟩
  show ¬ _ ≤ _
  rw [List.length_append, hlength]
  exact Nat.not_succ_le_self _

end Collections

/-- Each function that checks no size gives something too large for some bounded arguments. -/
theorem unchecked_exceeds : ∀ g ∈ uncheckedFunctions, Exceeds g := by
  have hpush := Collections.push_exceeds (Collections.bounded_ones maxListLength)
    List.length_replicate (tame_bounded.int 1)
  unfold uncheckedFunctions
  simp only [List.forall_mem_cons]
  exact ⟨Core.str_exceeds, Texts.upper_exceeds, Texts.lower_exceeds, Texts.replace_exceeds,
    Texts.split_exceeds, Texts.join_exceeds, Texts.padLeft_exceeds, Texts.padRight_exceeds,
    ⟨_, _, hpush⟩, nofun⟩

end Library

end ReportTemplate
