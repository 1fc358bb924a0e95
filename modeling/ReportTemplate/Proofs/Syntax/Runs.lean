import ReportTemplate.Proofs.Syntax.Laws
import ReportTemplate.Proofs.Syntax.Outcomes

/-!
# ReportTemplate.Proofs.Syntax.Runs — what a run of a parser consists of

The run of a combinator is taken apart into the runs of its parts, with the failures of both merged.  A
parser that reads a token whenever it succeeds can be repeated, and the bound on the rounds of the
repetition is never met: `many_cases` and `items_cases` tell what a repetition does without it.
-/

namespace ReportTemplate.Syntax.Parser

variable {α β : Type} {p q : Parser α} {k l : Nat}

/-! ### Runs of one part, or of two -/

theorem map_run (f : α → β) (p : Parser α) (c : Cursor) :
    (p >>= fun a => pure (f a)) c = ((p c).1.map fun r => (f r.1, r.2), (p c).2) := by
  show andThen p (fun a => done (f a)) c = _
  unfold andThen done
  rcases p c with ⟨_ | ⟨a, c'⟩, e⟩
  · rfl
  · exact Prod.ext rfl (Failure.merge_none e)

/-- A sequence stops at the part that fails. -/
theorem seq_cases (p : Parser α) (q : Parser β) (c : Cursor) :
    (∃ e, p c = (none, e) ∧ (p >>= fun a => q >>= fun b => pure (a, b)) c = (none, e)) ∨
      (∃ a c' e e', p c = (some (a, c'), e) ∧ q c' = (none, e') ∧
        (p >>= fun a => q >>= fun b => pure (a, b)) c = (none, Failure.merge e e')) ∨
      ∃ a c' e b c'' e', p c = (some (a, c'), e) ∧ q c' = (some (b, c''), e') ∧
        (p >>= fun a => q >>= fun b => pure (a, b)) c = (some ((a, b), c''), Failure.merge e e') := by
  have hrun : (p >>= fun a => q >>= fun b => pure (a, b)) c =
      andThen p (fun a => q >>= fun b => pure (a, b)) c := rfl
  rw [hrun]
  unfold andThen
  rcases p c with ⟨_ | ⟨a, c'⟩, e⟩
  · exact .inl ⟨e, rfl, rfl⟩
  refine .inr ?_
  dsimp only
  rw [map_run]
  rcases hq : q c' with ⟨_ | ⟨b, c''⟩, e'⟩
  · exact .inl ⟨a, c', e, e', rfl, hq, rfl⟩
  · exact .inr ⟨a, c', e, b, c'', e', rfl, hq, rfl⟩

/-- The second of two parsers runs where the first fails. -/
theorem either_cases (p q : Parser α) (c : Cursor) :
    (∃ r e, p c = (some r, e) ∧ either p q c = (some r, e)) ∨
      ∃ e, p c = (none, e) ∧ either p q c = ((q c).1, Failure.merge e (q c).2) := by
  unfold either
  rcases p c with ⟨_ | r, e⟩
  · exact .inr ⟨e, rfl, rfl⟩
  · exact .inl ⟨r, e, rfl, rfl⟩

theorem optional_cases (p : Parser α) (c : Cursor) :
    (∃ a c' e, p c = (some (a, c'), e) ∧ optional p c = (some (some a, c'), e)) ∨
      ∃ e, p c = (none, e) ∧ optional p c = (some (none, c), e) := by
  unfold optional
  rcases p c with ⟨_ | ⟨a, c'⟩, e⟩
  · exact .inr ⟨e, rfl, rfl⟩
  · exact .inl ⟨a, c', e, rfl, rfl⟩

/-! ### Tokens that are read -/

/-- At least `k` tokens are read whenever the parser succeeds. -/
def Consumes (k : Nat) (p : Parser α) : Prop :=
  ∀ c a c', result p c = some (a, c') → c'.rest.length + k ≤ c.rest.length

namespace Consumes

theorem mono (h : Consumes l p) (hkl : k ≤ l) : Consumes k p := by
  intro c a c' hr
  have := h c a c' hr
  omega

theorem pure (a : α) : Consumes 0 (pure a : Parser α) := by
  intro c b c' hr
  obtain ⟨-, rfl⟩ := result_pure_some hr
  exact Nat.le_refl _

theorem bind {f : α → Parser β} (hp : Consumes k p) (hf : ∀ a, Consumes l (f a)) :
    Consumes (k + l) (p >>= f) := by
  intro c b c'' hr
  obtain ⟨a, c', ha, hb⟩ := result_bind_some hr
  have h₁ := hp c a c' ha
  have h₂ := hf a c' b c'' hb
  omega

theorem stuck : Consumes k (stuck : Parser α) := fun _ _ _ hr => nomatch hr

theorem token (wanted : List String) (f : Token → Option α) : Consumes 1 (token wanted f) := by
  intro c a c' hr
  obtain ⟨t, rest, hrest, -, rfl⟩ := result_token_some hr
  rw [hrest]
  exact Nat.le_refl _

theorem either (hp : Consumes k p) (hq : Consumes k q) : Consumes k (either p q) := by
  intro c a c' hr
  rw [result_either] at hr
  rcases Option.or_eq_some_iff.mp hr with h | ⟨-, h⟩
  · exact hp c a c' h
  · exact hq c a c' h

theorem optional (hp : Consumes 0 p) : Consumes 0 (optional p) := by
  intro c o c' hr
  rw [result_optional] at hr
  split at hr
  · next a c₁ h =>
    obtain ⟨rfl, rfl⟩ := Prod.mk.inj (Option.some.inj hr)
    exact hp c a c₁ h
  · obtain ⟨rfl, rfl⟩ := Prod.mk.inj (Option.some.inj hr)
    exact Nat.le_refl _

theorem spanned (hp : Consumes k p) : Consumes k (spanned p) := by
  rintro c ⟨a, span⟩ c' hr
  exact hp c a c' (result_spanned_some hr).1

theorem labelled (label : String) (hp : Consumes k p) : Consumes k (labelled label p) := hp

theorem upTo (hp : Consumes 0 p) (bound : List Located) : Consumes 0 (upTo p bound) := by
  induction bound with
  | nil =>
    intro c as c' hr
    rw [result_upTo] at hr
    split at hr
    · obtain ⟨rfl, rfl⟩ := Prod.mk.inj (Option.some.inj hr)
      exact Nat.le_refl _
    · next a c₁ h _ =>
      obtain ⟨rfl, rfl⟩ := Prod.mk.inj (Option.some.inj hr)
      exact hp c a c₁ h
    · next h => cases h
  | cons t bound ih =>
    intro c as c' hr
    rw [result_upTo] at hr
    split at hr
    · obtain ⟨rfl, rfl⟩ := Prod.mk.inj (Option.some.inj hr)
      exact Nat.le_refl _
    · next h => cases h
    · next a c₁ _ _ h heq =>
      obtain ⟨rfl, rfl⟩ := List.cons.inj heq
      obtain ⟨⟨bs, c₂⟩, hbs, heq⟩ := Option.map_eq_some_iff.mp hr
      obtain ⟨rfl, rfl⟩ := Prod.mk.inj heq
      exact Nat.le_trans (ih c₁ bs c₂ hbs) (hp c a c₁ h)

theorem itemsUpTo (hp : Consumes 0 p) (bound : List Located) : Consumes 0 (itemsUpTo p bound) := by
  have hcomma : Consumes 0 (symbol .comma) := (Consumes.token _ _).mono (Nat.zero_le 1)
  induction bound with
  | nil =>
    intro c as c' hr
    rw [result_itemsUpTo] at hr
    split at hr
    · obtain ⟨rfl, rfl⟩ := Prod.mk.inj (Option.some.inj hr)
      exact Nat.le_refl _
    · next a c₁ h =>
      split at hr
      · obtain ⟨rfl, rfl⟩ := Prod.mk.inj (Option.some.inj hr)
        exact hp c a c₁ h
      · next u c₂ h' _ =>
        obtain ⟨rfl, rfl⟩ := Prod.mk.inj (Option.some.inj hr)
        exact Nat.le_trans (hcomma c₁ u c₂ h') (hp c a c₁ h)
      · next heq => cases heq
  | cons t bound ih =>
    intro c as c' hr
    rw [result_itemsUpTo] at hr
    split at hr
    · obtain ⟨rfl, rfl⟩ := Prod.mk.inj (Option.some.inj hr)
      exact Nat.le_refl _
    · next a c₁ h =>
      split at hr
      · obtain ⟨rfl, rfl⟩ := Prod.mk.inj (Option.some.inj hr)
        exact hp c a c₁ h
      · next heq => cases heq
      · next u c₂ _ _ h' heq =>
        obtain ⟨rfl, rfl⟩ := List.cons.inj heq
        obtain ⟨⟨bs, c₃⟩, hbs, heq⟩ := Option.map_eq_some_iff.mp hr
        obtain ⟨rfl, rfl⟩ := Prod.mk.inj heq
        exact Nat.le_trans (ih c₂ bs c₃ hbs) (Nat.le_trans (hcomma c₁ u c₂ h') (hp c a c₁ h))

end Consumes

/-! ### Repetitions without a bound -/

/-- A bound on the rounds that is no less than the tokens left does not matter. -/
theorem upTo_bound (hp : Consumes 1 p) {bound bound' : List Located} {c : Cursor}
    (h : c.rest.length ≤ bound.length) (h' : c.rest.length ≤ bound'.length) :
    upTo p bound c = upTo p bound' c := by
  induction bound generalizing c bound' with
  | nil =>
    have hnone : result p c = none := by
      rw [Option.eq_none_iff_forall_ne_some]
      rintro ⟨a, c'⟩ hr
      have := hp c a c' hr
      simp only [List.length_nil] at h
      omega
    unfold upTo
    rw [show p c = (none, (p c).2) from Prod.ext hnone rfl]
  | cons t bound ih =>
    rw [upTo.eq_def, upTo.eq_def p bound']
    rcases hrun : p c with ⟨_ | ⟨a, c'⟩, e⟩
    · rfl
    · have hless := hp c a c' (congrArg Prod.fst hrun)
      cases bound' with
      | nil =>
        simp only [List.length_nil] at h'
        omega
      | cons t' bound' =>
        simp only [List.length_cons] at h h'
        dsimp only
        rw [ih (show c'.rest.length ≤ bound.length by omega)
          (show c'.rest.length ≤ bound'.length by omega)]

theorem itemsUpTo_bound (hp : Consumes 1 p) {bound bound' : List Located} {c : Cursor}
    (h : c.rest.length ≤ bound.length) (h' : c.rest.length ≤ bound'.length) :
    itemsUpTo p bound c = itemsUpTo p bound' c := by
  induction bound generalizing c bound' with
  | nil =>
    have hnone : result p c = none := by
      rw [Option.eq_none_iff_forall_ne_some]
      rintro ⟨a, c'⟩ hr
      have := hp c a c' hr
      simp only [List.length_nil] at h
      omega
    unfold itemsUpTo
    rw [show p c = (none, (p c).2) from Prod.ext hnone rfl]
  | cons t bound ih =>
    rw [itemsUpTo.eq_def, itemsUpTo.eq_def p bound']
    rcases hrun : p c with ⟨_ | ⟨a, c'⟩, e⟩
    · rfl
    · have hless := hp c a c' (congrArg Prod.fst hrun)
      dsimp only
      rcases hcomma : symbol .comma c' with ⟨_ | ⟨_, c''⟩, e'⟩
      · rfl
      · have hless' := Consumes.token _ _ c' _ c'' (congrArg Prod.fst hcomma)
        cases bound' with
        | nil =>
          simp only [List.length_nil] at h'
          omega
        | cons t' bound' =>
          simp only [List.length_cons] at h h'
          dsimp only
          rw [ih (show c''.rest.length ≤ bound.length by omega)
            (show c''.rest.length ≤ bound'.length by omega)]

/-- A repetition ends where the parser fails, and otherwise goes on behind what it read. -/
theorem many_cases (hp : Consumes 1 p) (c : Cursor) :
    (∃ e, p c = (none, e) ∧ many p c = (some ([], c), e)) ∨
      ∃ a c' e as c'' e', p c = (some (a, c'), e) ∧ many p c' = (some (as, c''), e') ∧
        many p c = (some (a :: as, c''), Failure.merge e e') := by
  unfold many
  rcases hrun : p c with ⟨_ | ⟨a, c'⟩, e⟩
  · refine .inl ⟨e, rfl, ?_⟩
    rw [upTo.eq_def, hrun]
  · have hless := hp c a c' (congrArg Prod.fst hrun)
    obtain ⟨⟨as, c''⟩, htail⟩ := Option.isSome_iff_exists.mp (result_upTo_isSome p c'.rest c')
    have hmany : upTo p c'.rest c' = (some (as, c''), (upTo p c'.rest c').2) := Prod.ext htail rfl
    refine .inr ⟨a, c', e, as, c'', _, rfl, hmany, ?_⟩
    rw [upTo.eq_def, hrun]
    cases hrest : c.rest with
    | nil =>
      rw [hrest, List.length_nil] at hless
      omega
    | cons t rest =>
      rw [hrest, List.length_cons] at hless
      dsimp only
      rw [upTo_bound hp (show c'.rest.length ≤ rest.length by omega) (Nat.le_refl _), hmany]
      rfl

theorem result_itemsUpTo_isSome (p : Parser α) (bound : List Located) (c : Cursor) :
    (result (itemsUpTo p bound) c).isSome = true := by
  induction bound generalizing c with
  | nil =>
    rw [result_itemsUpTo]
    split
    · rfl
    · split
      · rfl
      · rfl
      · next heq => cases heq
  | cons t bound ih =>
    rw [result_itemsUpTo]
    split
    · rfl
    · split
      · rfl
      · rfl
      · next heq =>
        obtain ⟨rfl, rfl⟩ := List.cons.inj heq
        rw [Option.isSome_map]
        exact ih _

/-- Items end where none can be read, or behind one without a comma behind it. -/
theorem items_cases (hp : Consumes 1 p) (c : Cursor) :
    (∃ e, p c = (none, e) ∧ itemsUpTo p c.rest c = (some ([], c), e)) ∨
      (∃ a c' e e', p c = (some (a, c'), e) ∧ symbol .comma c' = (none, e') ∧
        itemsUpTo p c.rest c = (some ([a], c'), Failure.merge e e')) ∨
      ∃ a c' e c'' e' as c₃ e'', p c = (some (a, c'), e) ∧ symbol .comma c' = (some ((), c''), e') ∧
        itemsUpTo p c''.rest c'' = (some (as, c₃), e'') ∧
        itemsUpTo p c.rest c = (some (a :: as, c₃), Failure.merge (Failure.merge e e') e'') := by
  rcases hrun : p c with ⟨_ | ⟨a, c'⟩, e⟩
  · refine .inl ⟨e, rfl, ?_⟩
    rw [itemsUpTo.eq_def, hrun]
  have hless := hp c a c' (congrArg Prod.fst hrun)
  rcases hcomma : symbol .comma c' with ⟨_ | ⟨_, c''⟩, e'⟩
  · refine .inr (.inl ⟨a, c', e, e', rfl, hcomma, ?_⟩)
    rw [itemsUpTo.eq_def, hrun]
    dsimp only
    rw [hcomma]
  have hless' := Consumes.token _ _ c' _ c'' (congrArg Prod.fst hcomma)
  obtain ⟨⟨as, c₃⟩, htail⟩ := Option.isSome_iff_exists.mp (result_itemsUpTo_isSome p c''.rest c'')
  have hitems : itemsUpTo p c''.rest c'' = (some (as, c₃), (itemsUpTo p c''.rest c'').2) :=
    Prod.ext htail rfl
  refine .inr (.inr ⟨a, c', e, c'', e', as, c₃, _, rfl, hcomma, hitems, ?_⟩)
  rw [itemsUpTo.eq_def, hrun]
  dsimp only
  rw [hcomma]
  cases hrest : c.rest with
  | nil =>
    rw [hrest, List.length_nil] at hless
    omega
  | cons t rest =>
    rw [hrest, List.length_cons] at hless
    dsimp only
    rw [itemsUpTo_bound hp (show c''.rest.length ≤ rest.length by omega) (Nat.le_refl _), hitems]
    rfl

theorem result_many (hp : Consumes 1 p) (c : Cursor) : result (many p) c =
    match result p c with
    | none => some ([], c)
    | some (a, c') => (result (many p) c').map fun r => (a :: r.1, r.2) := by
  unfold result
  rcases many_cases hp c with ⟨e, hrun, heq⟩ | ⟨a, c', e, as, c'', e', hrun, hrun', heq⟩
  · rw [heq, hrun]
  · rw [heq, hrun]
    dsimp only
    rw [hrun']
    rfl

theorem result_items (hp : Consumes 1 p) (c : Cursor) : result (itemsUpTo p c.rest) c =
    match result p c with
    | none => some ([], c)
    | some (a, c') =>
      match result (symbol .comma) c' with
      | none => some ([a], c')
      | some (_, c'') => (result (itemsUpTo p c''.rest) c'').map fun r => (a :: r.1, r.2) := by
  unfold result
  rcases items_cases hp c with ⟨e, hrun, heq⟩ | ⟨a, c', e, e', hrun, hcomma, heq⟩ |
      ⟨a, c', e, c'', e', as, c₃, e'', hrun, hcomma, hrun', heq⟩
  · rw [heq, hrun]
  · rw [heq, hrun]
    dsimp only
    rw [hcomma]
  · rw [heq, hrun]
    dsimp only
    rw [hcomma]
    dsimp only
    rw [hrun']
    rfl

end ReportTemplate.Syntax.Parser
