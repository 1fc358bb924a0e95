import ReportTemplate.Proofs.Library.Separators

/-!
# ReportTemplate.Proofs.Text.Pieces — a text cut at a character

Lines are cut at line feeds and paths at slashes.  A cut at one character is undone by putting the
character between the pieces, and pieces without the character are found again.
-/

namespace ReportTemplate.Text

variable {c : Char} {s : List Char}

theorem startsWith_singleton (c d : Char) (s : List Char) :
    startsWith [c] (d :: s) = decide (c = d) := by
  unfold startsWith
  rw [List.isPrefixOf_cons_cons, List.isPrefixOf_nil_left, Bool.and_true]
  rfl

theorem splitFrom_free (hs : c ∉ s) (piece : List Char) :
    splitFrom [c] [] piece 0 s = [piece.reverse ++ s] := by
  induction s generalizing piece with
  | nil => simp [splitFrom]
  | cons d r ih =>
    obtain ⟨hd, hr⟩ := not_or.mp (mt List.mem_cons.mpr hs)
    simp only [splitFrom, Nat.lt_irrefl, if_false, startsWith_singleton, decide_eq_true_eq]
    rw [if_neg hd, ih hr, List.reverse_cons, List.append_assoc, List.singleton_append]

theorem splitFrom_append (c : Char) (u w piece : List Char) :
    splitFrom [c] [] piece 0 (u ++ c :: w) = splitFrom [c] [] piece 0 u ++ split w [c] := by
  induction u generalizing piece with
  | nil =>
    simp only [List.nil_append, splitFrom, Nat.lt_irrefl, if_false, startsWith_singleton, decide_true,
      if_true, List.length_singleton, Nat.sub_self]
    rw [splitFrom_done]
    rfl
  | cons d u ih =>
    simp only [List.cons_append, splitFrom, Nat.lt_irrefl, if_false, startsWith_singleton,
      decide_eq_true_eq, List.length_singleton, Nat.sub_self]
    by_cases hd : c = d
    · rw [if_pos hd, if_pos hd, splitFrom_done, ih, splitFrom_done [piece.reverse], List.append_assoc]
    · rw [if_neg hd, if_neg hd, ih]

/-- A text without the character is one piece. -/
theorem split_free (hs : c ∉ s) : split s [c] = [s] := splitFrom_free hs []

/-- The character cuts a text in two. -/
theorem split_append (c : Char) (u w : List Char) :
    split (u ++ c :: w) [c] = split u [c] ++ split w [c] := splitFrom_append c u w []

theorem split_ne_nil (s : List Char) (c : Char) : split s [c] ≠ [] :=
  (apart_split (List.cons_ne_nil c []) s).ne_nil

theorem not_mem_of_mem_split {p : List Char} (hp : p ∈ split s [c]) : c ∉ p := by
  have h := (apart_split (List.cons_ne_nil c []) s).not_mem (List.cons_ne_nil c []) p hp
  rwa [List.singleton_infix_iff] at h

theorem intercalate_split (c : Char) (s : List Char) : [c].intercalate (split s [c]) = s :=
  (apart_split (List.cons_ne_nil c []) s).intercalate_eq

/-- A character between pieces is the one that they are cut at, or stands in a piece. -/
theorem mem_intercalate {pieces : List (List Char)} {d : Char} (hd : d ∈ [c].intercalate pieces) :
    d = c ∨ ∃ p ∈ pieces, d ∈ p := by
  induction pieces with
  | nil => cases hd
  | cons q pieces ih =>
    cases pieces with
    | nil => exact .inr ⟨q, List.mem_singleton_self q, by simpa using hd⟩
    | cons q' pieces =>
      rw [List.intercalate_cons_of_ne_nil (List.cons_ne_nil _ _), List.append_assoc,
        List.singleton_append] at hd
      rcases List.mem_append.mp hd with hd | hd
      · exact .inr ⟨q, List.mem_cons_self, hd⟩
      · rcases List.mem_cons.mp hd with rfl | hd
        · exact .inl rfl
        · exact (ih hd).imp id fun ⟨p, hp, h⟩ => ⟨p, List.mem_cons_of_mem q hp, h⟩

theorem intercalate_concat {pieces : List (List Char)} (hne : pieces ≠ []) (p : List Char) :
    [c].intercalate (pieces ++ [p]) = [c].intercalate pieces ++ c :: p := by
  induction pieces with
  | nil => exact absurd rfl hne
  | cons q pieces ih =>
    rw [List.cons_append, List.intercalate_cons_of_ne_nil (by simp)]
    cases pieces with
    | nil => simp
    | cons q' pieces =>
      rw [ih (List.cons_ne_nil _ _), List.intercalate_cons_of_ne_nil (List.cons_ne_nil _ _),
        List.append_assoc _ _ (c :: p)]

/-- A piece holds characters of the text only. -/
theorem mem_of_mem_split {p : List Char} {d : Char} (hp : p ∈ split s [c]) (hd : d ∈ p) : d ∈ s := by
  rw [← intercalate_split c s]
  generalize split s [c] = pieces at hp
  induction pieces with
  | nil => cases hp
  | cons q pieces ih =>
    cases pieces with
    | nil =>
      obtain rfl := List.mem_singleton.mp hp
      simpa using hd
    | cons q' pieces =>
      rw [List.intercalate_cons_of_ne_nil (List.cons_ne_nil _ _)]
      rcases List.mem_cons.mp hp with rfl | hp
      · simp [hd]
      · exact List.mem_append_right _ (ih hp)

/-- Pieces without the character are found again. -/
theorem split_intercalate {pieces : List (List Char)} (hne : pieces ≠ [])
    (h : ∀ p ∈ pieces, c ∉ p) : split ([c].intercalate pieces) [c] = pieces := by
  induction pieces with
  | nil => exact absurd rfl hne
  | cons p pieces ih =>
    obtain ⟨hp, hpieces⟩ := List.forall_mem_cons.mp h
    cases pieces with
    | nil => rw [List.intercalate_singleton, split_free hp]
    | cons q pieces =>
      rw [List.intercalate_cons_of_ne_nil (List.cons_ne_nil _ _), List.append_assoc,
        List.singleton_append, split_append, split_free hp, ih (List.cons_ne_nil _ _) hpieces]
      rfl

end ReportTemplate.Text
