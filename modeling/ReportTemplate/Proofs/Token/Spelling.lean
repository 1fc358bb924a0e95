import ReportTemplate.Proofs.Token.Longest

/-!
# ReportTemplate.Proofs.Token.Spelling — each token by its text

A piece has the text of its own pattern, and a token carries what its text denotes.  A word is an
identifier only if it is no keyword, and what is unknown has no pattern without an excuse.
-/

namespace ReportTemplate.Lexer

/-- No pattern has a text that the input begins with, but for an excuse. -/
def Unread (text rest : List Char) : Prop :=
  ∀ (P : Pattern) (w : List Char), w ∈ P.language → w <+: text ++ rest → Excuse text P

/-- How the tokens are spelled that stand in front of the rest. -/
inductive Spells (text rest : List Char) : Token → Prop
  | keyword {k : Keyword} (h : text ∈ (Pattern.keyword k).language) : Spells text rest (.keyword k)
  | symbol {k : Symbol} (h : text ∈ (Pattern.symbol k).language) : Spells text rest (.symbol k)
  | ident (h : text ∈ Pattern.ident.language) (hk : ∀ k, text ∉ (Pattern.keyword k).language) :
      Spells text rest (.ident (String.ofList text))
  | string {b s : List Char} (h : text ∈ Pattern.string.language) (hb : text = '"' :: (b ++ ['"']))
      (hs : Denotes b s) : Spells text rest (.string (String.ofList s))
  | int {n : Int64} (h : text ∈ Pattern.int.language)
      (hn : n.toInt = (Nat.ofDigitChars 10 text 0 : Nat)) : Spells text rest (.int n)
  | float {x : Number.Binary64} (h : text ∈ Pattern.float.language)
      (hx : Number.readFloat? text = some x) : Spells text rest (.float x)
  | unknown (h : Unread text rest) : Spells text rest (.unknown (String.ofList text))

/-- How a piece is spelled that stands in front of the rest. -/
def Lexeme.Spelled (text rest : List Char) : Lexeme → Prop
  | .blank => text ∈ Pattern.blanks.language
  | .comment => text ∈ Pattern.lineComment.language ∨ text ∈ Pattern.blockComment.language
  | .token t => Spells text rest t

/-! ### Words and numbers -/

theorem Keyword.mem_all (k : Keyword) : k ∈ Keyword.all := by
  cases k <;> decide

theorem spells_word {text : List Char} (rest : List Char) (h : text ∈ Pattern.ident.language) :
    Spells text rest (word text) := by
  simp only [word]
  split
  next k hk =>
    have htext : k.text = String.ofList text := by
      simpa using List.find?_some (p := fun k : Keyword => decide (k.text = String.ofList text)) hk
    refine .keyword ?_
    show text = k.text.toList
    rw [htext, String.toList_ofList]
  next hk =>
    refine .ident h fun k hkt => ?_
    have hno := List.find?_eq_none.mp hk k (Keyword.mem_all k)
    have htext : text = k.text.toList := hkt
    simp [htext] at hno

theorem spells_integer {text rest : List Char} (h : text ∈ Pattern.int.language)
    (hno : ∀ s, integer text = .unknown s → Unread text rest) : Spells text rest (integer text) := by
  unfold integer at hno ⊢
  split
  next n hn =>
    split_ifs with hlt
    · exact .int h (by rw [Int64.toInt_ofNat_of_lt hlt, Number.readNat?_eq_some hn])
    · refine .unknown (hno (String.ofList text) ?_)
      rw [hn]
      exact if_neg hlt
  next hn =>
    refine .unknown (hno (String.ofList text) ?_)
    rw [hn]

theorem lowerAscii_of_isDigit {c : Char} (hc : Number.isDigit c = true) : Number.lowerAscii c = c := by
  have hletter : ¬('A' ≤ c ∧ c ≤ 'Z') := by
    simp only [Number.isDigit, Bool.and_eq_true, decide_eq_true_eq] at hc
    intro h
    exact absurd (Char.le_trans h.1 hc.2) (by decide)
  simp [Number.lowerAscii, hletter]

theorem readPositional?_point {u v : List Char} (hu : u ∈ Pattern.int.language)
    (hv : v ∈ Pattern.int.language) : Number.readPositional? false (u ++ '.' :: v) =
      some (Number.nearestFloat false (u ++ v) (-v.length)) := by
  obtain ⟨hne, hu⟩ := mem_int.mp hu
  obtain ⟨-, hv⟩ := mem_int.mp hv
  have hwhole : (u ++ '.' :: v).takeWhile Number.isDigit = u := by
    rw [takeWhile_append_stop rfl, List.takeWhile_eq_self_iff.mpr hu]
  have hbehind : (u ++ '.' :: v).dropWhile Number.isDigit = '.' :: v := by
    rw [dropWhile_append_stop rfl, List.dropWhile_eq_nil_iff.mpr hu]
    rfl
  have hplaces : v.takeWhile Number.isDigit = v := List.takeWhile_eq_self_iff.mpr hv
  have hend : v.dropWhile Number.isDigit = [] := List.dropWhile_eq_nil_iff.mpr hv
  unfold Number.readPositional?
  simp [hwhole, hbehind, hplaces, hend, hne, Number.readExponent?]

/-- Digits with a point among them are read as a float, however many they are. -/
theorem readFloat?_point {u v : List Char} (hu : u ∈ Pattern.int.language)
    (hv : v ∈ Pattern.int.language) :
    Number.readFloat? (u ++ '.' :: v) = some (Number.nearestFloat false (u ++ v) (-v.length)) := by
  have hpositional := readPositional?_point hu hv
  obtain ⟨c, w, hc, -, rfl⟩ := mem_one_mul.mp hu
  have hsign : Number.splitSign (c :: (w ++ '.' :: v)) = (false, c :: (w ++ '.' :: v)) := by
    unfold Number.splitSign
    split <;> simp_all [Number.isDigit]
  have hword (e : Char) (t : List Char) (he : Number.isDigit e = false) :
      String.ofList ((c :: (w ++ '.' :: v)).map Number.lowerAscii) ≠ String.ofList (e :: t) := by
    intro h
    rw [String.ofList_inj, List.map_cons, lowerAscii_of_isDigit hc] at h
    rw [(List.cons_eq_cons.mp h).1, he] at hc
    cases hc
  unfold Number.readFloat?
  simp only [List.cons_append] at hpositional ⊢
  simp only [hsign, hpositional]
  rw [if_neg, if_neg]
  · exact hword 'n' ['a', 'n'] rfl
  · exact not_or.mpr ⟨hword 'i' ['n', 'f'] rfl, hword 'i' ['n', 'f', 'i', 'n', 'i', 't', 'y'] rfl⟩

section Pieces

variable {c : Char} {r : List Char}

theorem unread_of_munch {s : String} (hs : (munch c r).1 = .token (.unknown s)) :
    Unread (taken c r) (r.drop (munch c r).2) := by
  intro P w hw h
  rw [taken_append_drop] at h
  exact (finds hw h).known s hs

theorem spelled_unknown {n : Nat}
    (hm : munch c r = (.token (.unknown (String.ofList (c :: r.take n))), n)) :
    (munch c r).1.Spelled (taken c r) (r.drop (munch c r).2) := by
  have hunread := unread_of_munch (s := String.ofList (c :: r.take n)) (by rw [hm])
  have htaken : taken c r = c :: r.take n := by rw [taken, hm]
  rw [htaken] at hunread ⊢
  rw [hm] at hunread ⊢
  exact .unknown hunread

/-- Behind digits with a point stand the digits of the places. -/
theorem exists_places (hp : places r ≠ []) :
    ∃ t, r = r.takeWhile Number.isDigit ++ '.' :: (places r ++ t) := by
  have hr := List.takeWhile_append_dropWhile (p := Number.isDigit) (l := r)
  unfold places at hp ⊢
  split at hp
  next s hs =>
    refine ⟨s.dropWhile Number.isDigit, ?_⟩
    rw [List.takeWhile_append_dropWhile, ← hs, hr]
  next => exact absurd rfl hp

theorem places_isDigit : ∀ d ∈ places r, Number.isDigit d = true := by
  unfold places
  split
  · exact fun d hd => List.mem_takeWhile_imp hd
  · simp

theorem spelled_number (hc : Number.isDigit c = true) :
    (munch c r).1.Spelled (taken c r) (r.drop (munch c r).2) := by
  have hwhole := mem_int_takeWhile hc r
  by_cases hp : places r = []
  · have hm := munch_int hc hp
    have hunread := fun s hs => unread_of_munch (c := c) (r := r) (s := s) hs
    rw [taken_eq hm (List.takeWhile_prefix _), hm] at hunread ⊢
    exact spells_integer hwhole fun s hs => hunread s (by rw [hs])
  · have hm := munch_float hc hp
    have hplaces : places r ∈ Pattern.int.language := mem_int.mpr ⟨hp, places_isDigit⟩
    obtain ⟨t, ht⟩ := exists_places hp
    have hpre : r.takeWhile Number.isDigit ++ '.' :: places r <+: r :=
      ⟨t, by simpa using ht.symm⟩
    rw [taken_eq hm hpre, hm]
    exact .float (mem_float.mpr ⟨_, _, hwhole, hplaces, rfl⟩) (readFloat?_point hwhole hplaces)

theorem spelled_string : (munch '"' r).1.Spelled (taken '"' r) (r.drop (munch '"' r).2) := by
  have hm := munch_string r
  cases hbody : stringBody r with
  | mk n e =>
    rw [hbody] at hm
    by_cases he : e = .quote
    · subst he
      obtain ⟨b, s, t, hs, rfl, rfl⟩ := exists_denotes_of_stringBody hbody
      have hm' : munch '"' (b ++ '"' :: t) =
          (.token (.string (String.ofList s)), (b ++ ['"']).length) := by
        simp [hm, hs.unescape_eq]
      rw [taken_eq hm' ⟨t, by simp⟩, hm']
      exact .string (mem_string.mpr ⟨b, s, hs, rfl⟩) rfl hs
    · refine spelled_unknown (n := n) ?_
      cases e <;> simp_all

theorem spelled_blockComment :
    (munch '/' ('*' :: r)).1.Spelled (taken '/' ('*' :: r)) (('*' :: r).drop (munch '/' ('*' :: r)).2) := by
  have hm := munch_blockComment r
  cases hbody : blockBody r with
  | mk n closed =>
    rw [hbody] at hm
    cases closed with
    | true =>
      obtain ⟨b, t, hb, rfl, rfl⟩ := exists_body_of_blockBody hbody
      have hm' : munch '/' ('*' :: (b ++ '*' :: '/' :: t)) =
          (.comment, ('*' :: (b ++ ['*', '/'])).length) := by
        simp [hm]
      rw [taken_eq hm' ⟨t, by simp⟩, hm']
      exact .inr (mem_blockComment.mpr ⟨b, hb, rfl⟩)
    | false => exact spelled_unknown hm

theorem spelled_symbol (h₁ : isSeparator c = false) (h₂ : isIdentStart c = false)
    (h₃ : Number.isDigit c = false) (h₄ : c ≠ '"')
    (h₅ : c = '/' → r.head? ≠ some '/' ∧ r.head? ≠ some '*') :
    (munch c r).1.Spelled (taken c r) (r.drop (munch c r).2) := by
  have hm := munch_symbol r h₁ h₂ h₃ h₄ h₅
  cases hk : Symbol.atStart? (c :: r) with
  | none =>
    rw [hk] at hm
    exact spelled_unknown (n := 0) hm
  | some k =>
    rw [hk] at hm
    obtain ⟨d, u, htext, -⟩ := Symbol.first_class k
    have hpre := Symbol.atStart?_prefix hk
    rw [htext] at hpre
    obtain ⟨rfl, hu⟩ := List.cons_prefix_cons.mp hpre
    have hlen : k.text.length - 1 = u.length := by
      rw [← String.length_toList, htext, List.length_cons, Nat.add_sub_cancel]
    have hm' : munch d r = (.token (.symbol k), u.length) := by simp [hm, hlen]
    rw [taken_eq hm' hu, hm']
    exact .symbol htext.symm

/-- The piece that a character begins is spelled as it should be. -/
theorem munch_spelled (c : Char) (r : List Char) :
    (munch c r).1.Spelled (taken c r) (r.drop (munch c r).2) := by
  rcases munch_classes c r with h | ⟨h₁, h₂⟩ | ⟨h₁, h₂, h₃⟩ | rfl | ⟨s, rfl, rfl⟩ | ⟨s, rfl, rfl⟩ |
    ⟨h₁, h₂, h₃, h₄, h₅⟩
  · have hm := munch_separator r h
    rw [taken_eq hm (List.takeWhile_prefix _), hm]
    exact mem_one_mul.mpr ⟨c, _, h, fun d hd => List.mem_takeWhile_imp hd, rfl⟩
  · have hm := munch_word r h₁ h₂
    rw [taken_eq hm (List.takeWhile_prefix _), hm]
    exact spells_word _ (mem_one_mul.mpr ⟨c, _, h₂, fun d hd => List.mem_takeWhile_imp hd, rfl⟩)
  · exact spelled_number h₃
  · exact spelled_string
  · have hm := munch_lineComment s
    rw [taken_eq hm (List.takeWhile_prefix _), hm]
    refine .inl (mem_lineComment.mpr ⟨s.takeWhile (· ≠ '\n'), fun d hd => ?_, rfl⟩)
    simpa using List.mem_takeWhile_imp hd
  · exact spelled_blockComment
  · exact spelled_symbol h₁ h₂ h₃ h₄ h₅

end Pieces

end ReportTemplate.Lexer
