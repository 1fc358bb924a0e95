import ReportTemplate.Proofs.Token.Pattern

/-!
# ReportTemplate.Proofs.Token.Longest — each piece is as long as it can be

Where the input begins with a text of some pattern, `munch` takes that text at least, and what it takes
is unknown only for one of three reasons.  There is one lemma for each pattern, and each says which
equation of `munch` applies.
-/

open scoped Computability

namespace ReportTemplate.Lexer

/-- No pattern has a text longer than this one that the input begins with. -/
def Longest (text rest : List Char) : Prop :=
  ∀ (P : Pattern) (w : List Char), w ∈ P.language → w <+: text ++ rest → w.length ≤ text.length

/-- Why a text is unknown although the input begins with a text of a pattern: this pattern is the one
that accepts anything, or its digits fit in no integer, or it is the slash of a comment that nothing
closes. -/
inductive Excuse (text : List Char) : Pattern → Prop
  | anything : Excuse text .anything
  | oversized (h : 2 ^ 63 ≤ Nat.ofDigitChars 10 text 0) : Excuse text .int
  | unclosed (h : ['/', '*'] <+: text) : Excuse text (.symbol .slash)

/-- The characters of the piece that `c` begins. -/
def taken (c : Char) (r : List Char) : List Char := c :: r.take (munch c r).2

/-- What `munch` does in front of a text of a pattern: it takes that text at least, and knows it unless
there is an excuse. -/
structure Finds (P : Pattern) (w : List Char) (c : Char) (r : List Char) : Prop where
  le : w.length ≤ (munch c r).2 + 1
  known : ∀ s, (munch c r).1 = .token (.unknown s) → Excuse (taken c r) P

theorem taken_eq {c : Char} {r u : List Char} {x : Lexeme} (hm : munch c r = (x, u.length))
    (hu : u <+: r) : taken c r = c :: u := by
  rw [taken, hm]
  exact congrArg _ (List.prefix_iff_eq_take.mp hu).symm

theorem length_le_takeWhile {p : Char → Bool} {u r : List Char} (hu : ∀ d ∈ u, p d = true)
    (h : u <+: r) : u.length ≤ (r.takeWhile p).length := by
  obtain ⟨t, rfl⟩ := h
  simp [List.takeWhile_append_of_pos hu]

theorem word_ne_unknown (text : List Char) (s : String) : word text ≠ .unknown s := by
  intro h
  simp only [word] at h
  split at h <;> cases h

section Patterns

variable {P : Pattern} {c : Char} {u r : List Char}

theorem finds_word (hc : isIdentStart c = true) (hu : ∀ d ∈ u, isIdentPart d = true) (h : u <+: r) :
    Finds P (c :: u) c r := by
  have hm := munch_word r (isSeparator_eq_false hc) hc
  constructor
  · have hle := length_le_takeWhile hu h
    simpa [hm] using hle
  · intro s hs
    simp [hm, word_ne_unknown] at hs

theorem finds_blanks (hc : isSeparator c = true) (hu : ∀ d ∈ u, isSeparator d = true) (h : u <+: r) :
    Finds P (c :: u) c r := by
  have hm := munch_separator r hc
  constructor
  · have hle := length_le_takeWhile hu h
    simpa [hm] using hle
  · intro s hs
    simp [hm] at hs

theorem finds_lineComment (hu : ∀ d ∈ u, d ≠ '\n') (h : u <+: r) :
    Finds P ('/' :: '/' :: u) '/' ('/' :: r) := by
  have hm := munch_lineComment r
  constructor
  · have hle : ('/' :: u).length ≤ (('/' :: r).takeWhile (· ≠ '\n')).length :=
      length_le_takeWhile (by simpa using hu) (List.cons_prefix_cons.mpr ⟨rfl, h⟩)
    rw [hm]
    exact Nat.succ_le_succ hle
  · intro s hs
    simp [hm] at hs

theorem finds_blockComment {b : List Char} (hb : b ∈ blockUnit∗) (r : List Char) :
    Finds P ('/' :: '*' :: (b ++ ['*', '/'])) '/' ('*' :: (b ++ '*' :: '/' :: r)) := by
  have hm := munch_blockComment (b ++ '*' :: '/' :: r)
  rw [blockBody_append hb] at hm
  constructor <;> simp [hm]

theorem finds_string {b s : List Char} (hb : Denotes b s) (r : List Char) :
    Finds P ('"' :: (b ++ ['"'])) '"' (b ++ '"' :: r) := by
  have hm := munch_string (b ++ '"' :: r)
  rw [hb.stringBody_append] at hm
  constructor <;> simp [hm]

theorem isIdentStart_eq_false_of_isDigit (hc : Number.isDigit c = true) : isIdentStart c = false := by
  rw [Bool.eq_false_iff]
  intro h
  simp [isDigit_eq_false h] at hc

/-- Digits that are no integer are too large for one. -/
theorem oversized_of_integer {ds : List Char} {s : String} (hds : ds ∈ Pattern.int.language)
    (h : integer ds = .unknown s) : 2 ^ 63 ≤ Nat.ofDigitChars 10 ds 0 := by
  unfold integer at h
  split at h
  next n hn =>
    split_ifs at h with hlt
    rw [← Number.readNat?_eq_some hn]
    exact Nat.le_of_not_lt hlt
  next hn =>
    have hnum : Number.isNumeral ds = true := by simpa [Number.isNumeral] using mem_int.mp hds
    exact Nat.le_trans (by decide) (Number.readNat?_eq_none hnum hn)

theorem munch_int (hc : Number.isDigit c = true) (hp : places r = []) : munch c r =
    (.token (integer (c :: r.takeWhile Number.isDigit)), (r.takeWhile Number.isDigit).length) := by
  rw [munch_number r (isSeparator_eq_false_of_isDigit hc) (isIdentStart_eq_false_of_isDigit hc) hc, hp]
  rfl

theorem munch_float (hc : Number.isDigit c = true) (hp : places r ≠ []) : munch c r =
    (.token (.float (Number.nearestFloat false
      (c :: (r.takeWhile Number.isDigit ++ places r)) (-(places r).length))),
      (r.takeWhile Number.isDigit ++ '.' :: places r).length) := by
  rw [munch_number r (isSeparator_eq_false_of_isDigit hc) (isIdentStart_eq_false_of_isDigit hc) hc,
    if_neg (by simpa using hp), List.length_append, List.length_cons, Nat.add_assoc, Nat.add_comm 1]

theorem mem_int_takeWhile (hc : Number.isDigit c = true) (r : List Char) :
    c :: r.takeWhile Number.isDigit ∈ Pattern.int.language :=
  mem_one_mul.mpr ⟨c, _, hc, fun _ hd => List.mem_takeWhile_imp hd, rfl⟩

theorem finds_int (hc : Number.isDigit c = true) (hu : ∀ d ∈ u, Number.isDigit d = true)
    (h : u <+: r) : Finds .int (c :: u) c r := by
  have hle := length_le_takeWhile hu h
  by_cases hp : places r = []
  · have hm := munch_int hc hp
    refine ⟨by simpa [hm] using hle, fun s hs => .oversized ?_⟩
    rw [taken_eq hm (List.takeWhile_prefix _)]
    exact oversized_of_integer (s := s) (mem_int_takeWhile hc r) (by simpa [hm] using hs)
  · have hm := munch_float hc hp
    constructor
    · simp only [hm, List.length_cons, List.length_append]
      omega
    · simp [hm]

theorem finds_float {v t : List Char} (hc : Number.isDigit c = true)
    (hu : ∀ d ∈ u, Number.isDigit d = true) (hv : v ∈ Pattern.int.language) :
    Finds P (c :: (u ++ '.' :: v)) c (u ++ '.' :: (v ++ t)) := by
  obtain ⟨hne, hv⟩ := mem_int.mp hv
  have hwhole : (u ++ '.' :: (v ++ t)).takeWhile Number.isDigit = u := by
    rw [takeWhile_append_stop rfl, List.takeWhile_eq_self_iff.mpr hu]
  have hplaces : places (u ++ '.' :: (v ++ t)) = v ++ t.takeWhile Number.isDigit := by
    unfold places
    rw [dropWhile_append_stop rfl, List.dropWhile_eq_nil_iff.mpr hu]
    exact List.takeWhile_append_of_pos hv
  have hm := munch_float (r := u ++ '.' :: (v ++ t)) hc (by simp [hplaces, hne])
  rw [hplaces, hwhole] at hm
  constructor <;> simp [hm]

/-! ### Symbols -/

theorem Symbol.first_class (k : Symbol) : ∃ c u, k.text.toList = c :: u ∧ isSeparator c = false ∧
    isIdentStart c = false ∧ Number.isDigit c = false ∧ c ≠ '"' ∧ (c = '/' → k = .slash) := by
  cases k <;> exact ⟨_, _, rfl, rfl, rfl, rfl, by decide, by decide⟩

/-- The symbols are tried from the longest on. -/
theorem Symbol.all_sorted : Symbol.all.Pairwise fun j k => k.text.length ≤ j.text.length := by
  decide

theorem Symbol.mem_all (k : Symbol) : k ∈ Symbol.all := by
  cases k <;> decide

theorem Symbol.atStart?_longest {s : List Char} {k : Symbol} (h : k.text.toList <+: s) :
    ∃ j, Symbol.atStart? s = some j ∧ k.text.length ≤ j.text.length := by
  cases hj : Symbol.atStart? s with
  | none =>
    have hk := List.find?_eq_none.mp hj k (Symbol.mem_all k)
    exact absurd (List.isPrefixOf_iff_prefix.mpr h) hk
  | some j =>
    refine ⟨j, rfl, ?_⟩
    obtain ⟨-, before, behind, hall, hbefore⟩ := List.find?_eq_some_iff_append.mp hj
    have hsorted := Symbol.all_sorted
    have hmem := Symbol.mem_all k
    rw [hall] at hsorted hmem
    rcases List.mem_append.mp hmem with hmem | hmem
    · have hno := hbefore k hmem
      simp [List.isPrefixOf_iff_prefix.mpr h] at hno
    · rcases List.mem_cons.mp hmem with rfl | hmem
      · exact Nat.le_refl _
      · have hrest := (List.pairwise_append.mp hsorted).2.1
        exact (List.pairwise_cons.mp hrest).1 k hmem

/-- The slash that begins a comment is not taken alone. -/
theorem finds_slash (h : r.head? = some '/' ∨ r.head? = some '*') :
    Finds (.symbol .slash) Symbol.slash.text.toList '/' r := by
  refine ⟨by simp [Symbol.text], fun s hs => ?_⟩
  rcases h with h | h
  · obtain ⟨t, rfl⟩ := List.head?_eq_some_iff.mp h
    simp [munch_lineComment] at hs
  · obtain ⟨t, rfl⟩ := List.head?_eq_some_iff.mp h
    have hpos : ∃ n, (munch '/' ('*' :: t)).2 = n + 1 := by
      rw [munch_blockComment]
      split <;> exact ⟨_, rfl⟩
    obtain ⟨n, hn⟩ := hpos
    exact .unclosed (by simp [taken, hn])

theorem finds_symbol {k : Symbol} (h : k.text.toList <+: c :: r) :
    Finds (.symbol k) k.text.toList c r := by
  obtain ⟨d, u, hk, h₁, h₂, h₃, h₄, h₅⟩ := Symbol.first_class k
  obtain ⟨rfl, hu⟩ := List.cons_prefix_cons.mp (hk ▸ h)
  by_cases hcomment : d = '/' → r.head? ≠ some '/' ∧ r.head? ≠ some '*'
  · obtain ⟨j, hj, hlen⟩ := Symbol.atStart?_longest h
    have hm := munch_symbol r h₁ h₂ h₃ h₄ hcomment
    rw [hj] at hm
    constructor
    · simp only [hm, String.length_toList]
      omega
    · simp [hm]
  · have hd : d = '/' := by
      by_contra hd
      exact hcomment fun hc => absurd hc hd
    subst hd
    rw [h₅ rfl]
    exact finds_slash (by_contra fun hne => hcomment fun _ => not_or.mp hne)

theorem finds {P : Pattern} {w : List Char} (hw : w ∈ P.language) (h : w <+: c :: r) :
    Finds P w c r := by
  cases P with
  | keyword k =>
    obtain rfl : w = k.text.toList := hw
    obtain ⟨d, u, hk, hd, hu⟩ := Keyword.letters k
    rw [hk] at h ⊢
    obtain ⟨rfl, hu'⟩ := List.cons_prefix_cons.mp h
    exact finds_word hd hu hu'
  | symbol k =>
    obtain rfl : w = k.text.toList := hw
    exact finds_symbol h
  | ident =>
    obtain ⟨d, u, hd, hu, rfl⟩ := mem_one_mul.mp hw
    obtain ⟨rfl, hu'⟩ := List.cons_prefix_cons.mp h
    exact finds_word hd hu hu'
  | string =>
    obtain ⟨b, s, hs, rfl⟩ := mem_string.mp hw
    obtain ⟨rfl, t, rfl⟩ := List.cons_prefix_cons.mp h
    simpa using finds_string hs t
  | float =>
    obtain ⟨_, v, hwhole, hv, rfl⟩ := mem_float.mp hw
    obtain ⟨d, u, hd, hu, rfl⟩ := mem_one_mul.mp hwhole
    obtain ⟨rfl, t, rfl⟩ := List.cons_prefix_cons.mp h
    simpa using finds_float (P := .float) (t := t) hd hu hv
  | int =>
    obtain ⟨d, u, hd, hu, rfl⟩ := mem_one_mul.mp hw
    obtain ⟨rfl, hu'⟩ := List.cons_prefix_cons.mp h
    exact finds_int hd hu hu'
  | lineComment =>
    obtain ⟨u, hu, rfl⟩ := mem_lineComment.mp hw
    obtain ⟨rfl, t, rfl⟩ := List.cons_prefix_cons.mp h
    exact finds_lineComment hu (List.prefix_append u t)
  | blockComment =>
    obtain ⟨b, hb, rfl⟩ := mem_blockComment.mp hw
    obtain ⟨rfl, t, rfl⟩ := List.cons_prefix_cons.mp h
    simpa using finds_blockComment hb t
  | blanks =>
    obtain ⟨d, u, hd, hu, rfl⟩ := mem_one_mul.mp hw
    obtain ⟨rfl, hu'⟩ := List.cons_prefix_cons.mp h
    exact finds_blanks hd hu hu'
  | anything =>
    obtain ⟨d, -, rfl⟩ := hw
    exact ⟨by simp, fun _ _ => .anything⟩

end Patterns

theorem taken_append_drop (c : Char) (r : List Char) :
    taken c r ++ r.drop (munch c r).2 = c :: r := by
  simp [taken]

theorem taken_length (c : Char) (r : List Char) : (taken c r).length = (munch c r).2 + 1 := by
  simp [taken, munch_le c r]

/-- No pattern has a text that goes on behind the piece which is taken. -/
theorem taken_longest (c : Char) (r : List Char) : Longest (taken c r) (r.drop (munch c r).2) := by
  intro P w hw h
  rw [taken_append_drop] at h
  rw [taken_length]
  exact (finds hw h).le

end ReportTemplate.Lexer
