import ReportTemplate.Syntax.Parser

/-!
# ReportTemplate.Proofs.Syntax.Reads — what parsers give

`result` is what a parser reads, the failed tests aside, with one equation for each combinator.
`Reads ts p Q` says that from any place among the tokens `ts` the parser gives values with the property
`Q` and stops among these tokens again.
-/

namespace ReportTemplate.Syntax

/-- The cursor stands among some tokens: what is left to read are those from its index on. -/
def Cursor.Among (ts : List Located) (c : Cursor) : Prop := ts.drop c.index = c.rest

namespace Parser

variable {α β : Type} {p q : Parser α}

/-! ### Results -/

/-- What a parser reads from a cursor, and where it stops. -/
def result (p : Parser α) (c : Cursor) : Option (α × Cursor) := (p c).1

theorem result_pure (a : α) (c : Cursor) : result (pure a) c = some (a, c) := rfl

theorem result_bind (f : α → Parser β) (c : Cursor) :
    result (p >>= f) c = (result p c).bind fun r => result (f r.1) r.2 := by
  show (andThen p f c).1 = _
  unfold andThen result
  split
  next h => rw [h]; rfl
  next h => rw [h]; rfl

theorem result_either (c : Cursor) : result (either p q) c = (result p c).or (result q c) := by
  unfold result either
  split
  next h => rw [h]; rfl
  next h => rw [h]; rfl

theorem result_optional (c : Cursor) : result (optional p) c =
    match result p c with
    | some (a, c') => some (some a, c')
    | none => some (none, c) := by
  unfold result optional
  split
  next h => rw [h]
  next h => rw [h]

theorem result_token (wanted : List String) (f : Token → Option α) (c : Cursor) :
    result (token wanted f) c =
      match c.rest with
      | [] => none
      | t :: rest => (f t.token).map fun a => (a, ⟨c.index + 1, t.span.stop, rest⟩) := by
  unfold result token
  cases c.rest with
  | nil => rfl
  | cons t rest =>
    dsimp only
    cases f t.token <;> rfl

theorem result_spanned (c : Cursor) :
    result (spanned p) c = (result p c).map fun r => ((r.1, ⟨c.start, r.2.last⟩), r.2) := rfl

theorem result_labelled (label : String) (c : Cursor) : result (labelled label p) c = result p c := rfl

theorem result_upTo (bound : List Located) (c : Cursor) : result (upTo p bound) c =
    match result p c, bound with
    | none, _ => some ([], c)
    | some (a, c'), [] => some ([a], c')
    | some (a, c'), _ :: bound => (result (upTo p bound) c').map fun r => (a :: r.1, r.2) := by
  unfold result
  rw [upTo.eq_def]
  dsimp only
  split
  next h => rw [h]
  next a c' e h =>
    rw [h]
    cases bound <;> rfl

theorem result_itemsUpTo (bound : List Located) (c : Cursor) : result (itemsUpTo p bound) c =
    match result p c with
    | none => some ([], c)
    | some (a, c') =>
      match result (symbol .comma) c', bound with
      | none, _ => some ([a], c')
      | some (_, c'), [] => some ([a], c')
      | some (_, c'), _ :: bound =>
        (result (itemsUpTo p bound) c').map fun r => (a :: r.1, r.2) := by
  unfold result
  rw [itemsUpTo.eq_def]
  dsimp only
  split
  next h => rw [h]
  next a c' e h =>
    rw [h]
    dsimp only
    split
    next h' => rw [h']
    next h' => rw [h']
    next h' => rw [h']

/-! ### Reading a token -/

theorem result_token_some {wanted : List String} {f : Token → Option α} {c c' : Cursor} {a : α}
    (h : result (token wanted f) c = some (a, c')) :
    ∃ t rest, c.rest = t :: rest ∧ f t.token = some a ∧ c' = ⟨c.index + 1, t.span.stop, rest⟩ := by
  rw [result_token] at h
  split at h
  · cases h
  · next t rest hrest =>
    obtain ⟨b, hb, heq⟩ := Option.map_eq_some_iff.mp h
    obtain ⟨rfl, rfl⟩ := Prod.mk.inj heq
    exact ⟨t, rest, hrest, hb, rfl⟩

theorem result_exactly {c : Cursor} {t : Located} {rest : List Located} (hrest : c.rest = t :: rest)
    (found : Token) : result (exactly found) c =
      if t.token = found then some ((), ⟨c.index + 1, t.span.stop, rest⟩) else none := by
  unfold exactly
  rw [result_token, hrest]
  dsimp only
  split <;> rfl

theorem result_pure_some {a b : α} {c c' : Cursor} (h : result (pure a) c = some (b, c')) :
    b = a ∧ c' = c := by
  obtain ⟨rfl, rfl⟩ := Prod.mk.inj (Option.some.inj h)
  exact ⟨rfl, rfl⟩

theorem result_bind_some {f : α → Parser β} {c c' : Cursor} {b : β}
    (h : result (p >>= f) c = some (b, c')) :
    ∃ a c₁, result p c = some (a, c₁) ∧ result (f a) c₁ = some (b, c') := by
  rw [result_bind] at h
  obtain ⟨⟨a, c₁⟩, ha, hb⟩ := Option.bind_eq_some_iff.mp h
  exact ⟨a, c₁, ha, hb⟩

theorem result_spanned_some {c c' : Cursor} {a : α} {span : Span}
    (h : result (spanned p) c = some ((a, span), c')) :
    result p c = some (a, c') ∧ span = ⟨c.start, c'.last⟩ := by
  rw [result_spanned] at h
  obtain ⟨⟨b, c₁⟩, hb, heq⟩ := Option.map_eq_some_iff.mp h
  cases heq
  exact ⟨hb, rfl⟩

theorem result_between_some {opening closing : Symbol} {c c' : Cursor} {a : α}
    (h : result (between opening closing p) c = some (a, c')) :
    ∃ c₁ c₂, result (symbol opening) c = some ((), c₁) ∧ result p c₁ = some (a, c₂) ∧
      result (symbol closing) c₂ = some ((), c') := by
  obtain ⟨_, c₁, hopening, hrest⟩ := result_bind_some h
  obtain ⟨b, c₂, hb, hrest⟩ := result_bind_some hrest
  obtain ⟨_, c₃, hclosing, hrest⟩ := result_bind_some hrest
  obtain ⟨rfl, rfl⟩ := result_pure_some hrest
  exact ⟨c₁, c₂, hopening, hb, hclosing⟩

/-! ### Readings -/

/-- From any place among some tokens a parser gives values with a property, and stops among them. -/
def Reads (ts : List Located) (p : Parser α) (Q : α → Prop) : Prop :=
  ∀ (c c' : Cursor) (a : α), c.Among ts → result p c = some (a, c') → c'.Among ts ∧ Q a

namespace Reads

variable {ts : List Located} {Q : α → Prop} {R : β → Prop}

theorem mono {Q' : α → Prop} (h : Reads ts p Q) (hQ : ∀ a, Q a → Q' a) : Reads ts p Q' :=
  fun c c' a hc hr => ⟨(h c c' a hc hr).1, hQ a (h c c' a hc hr).2⟩

theorem pure {a : α} (h : Q a) : Reads ts (Pure.pure a) Q := by
  intro c c' b hc hr
  obtain ⟨rfl, rfl⟩ := result_pure_some hr
  exact ⟨hc, h⟩

theorem bind {f : α → Parser β} (hp : Reads ts p Q) (hf : ∀ a, Q a → Reads ts (f a) R) :
    Reads ts (p >>= f) R := by
  intro c c'' b hc hr
  obtain ⟨a, c', ha, hb⟩ := result_bind_some hr
  obtain ⟨hc', hQ⟩ := hp c c' a hc ha
  exact hf a hQ c' c'' b hc' hb

theorem map {f : α → β} (hp : Reads ts p Q) (hf : ∀ a, Q a → R (f a)) : Reads ts (f <$> p) R :=
  hp.bind fun a hQ => .pure (hf a hQ)

/-- A parser may depend on the cursor that it begins at. -/
theorem atCursor {f : Cursor → Parser α} (h : ∀ c, Reads ts (f c) Q) : Reads ts (fun c => f c c) Q :=
  fun c => h c c

theorem stuck : Reads ts (stuck : Parser α) Q := fun _ _ _ _ hr => nomatch hr

theorem either (hp : Reads ts p Q) (hq : Reads ts q Q) : Reads ts (either p q) Q := by
  intro c c' a hc hr
  rw [result_either] at hr
  rcases Option.or_eq_some_iff.mp hr with h | ⟨-, h⟩
  · exact hp c c' a hc h
  · exact hq c c' a hc h

theorem optional (hp : Reads ts p Q) : Reads ts (optional p) fun o => ∀ a ∈ o, Q a := by
  intro c c' o hc hr
  rw [result_optional] at hr
  split at hr
  · next a c₁ h =>
    obtain ⟨rfl, rfl⟩ := Prod.mk.inj (Option.some.inj hr)
    obtain ⟨hc', hQ⟩ := hp c c₁ a hc h
    refine ⟨hc', fun b hb => ?_⟩
    obtain rfl := Option.some.inj hb
    exact hQ
  · obtain ⟨rfl, rfl⟩ := Prod.mk.inj (Option.some.inj hr)
    exact ⟨hc, fun b hb => nomatch hb⟩

theorem token (wanted : List String) {f : Token → Option α} (hf : ∀ t a, f t = some a → Q a) :
    Reads ts (token wanted f) Q := by
  intro c c' a hc hr
  obtain ⟨t, rest, hrest, ha, rfl⟩ := result_token_some hr
  have hnext : ts.drop (c.index + 1) = rest := by
    rw [← List.tail_drop, hc, hrest]
    rfl
  exact ⟨hnext, hf t.token a ha⟩

theorem exactly (t : Token) : Reads ts (exactly t) fun _ => True := .token _ fun _ _ _ => trivial

theorem spanned (hp : Reads ts p Q) : Reads ts (spanned p) fun r => Q r.1 := by
  rintro c c' ⟨a, span⟩ hc hr
  exact hp c c' a hc (result_spanned_some hr).1

theorem upTo (hp : Reads ts p Q) (bound : List Located) :
    Reads ts (upTo p bound) fun as => ∀ a ∈ as, Q a := by
  induction bound with
  | nil =>
    intro c c' as hc hr
    rw [result_upTo] at hr
    split at hr
    · obtain ⟨rfl, rfl⟩ := Prod.mk.inj (Option.some.inj hr)
      exact ⟨hc, fun a ha => nomatch ha⟩
    · next a c₁ h _ =>
      obtain ⟨rfl, rfl⟩ := Prod.mk.inj (Option.some.inj hr)
      obtain ⟨hc', hQ⟩ := hp c c₁ a hc h
      exact ⟨hc', List.forall_mem_singleton.mpr hQ⟩
    · next h => cases h
  | cons t bound ih =>
    intro c c' as hc hr
    rw [result_upTo] at hr
    split at hr
    · obtain ⟨rfl, rfl⟩ := Prod.mk.inj (Option.some.inj hr)
      exact ⟨hc, fun a ha => nomatch ha⟩
    · next h => cases h
    · next a c₁ _ _ h heq =>
      obtain ⟨rfl, rfl⟩ := List.cons.inj heq
      obtain ⟨⟨bs, c₂⟩, hbs, heq⟩ := Option.map_eq_some_iff.mp hr
      obtain ⟨rfl, rfl⟩ := Prod.mk.inj heq
      obtain ⟨hc₁, hQ⟩ := hp c c₁ a hc h
      obtain ⟨hc₂, hall⟩ := ih c₁ c₂ bs hc₁ hbs
      exact ⟨hc₂, List.forall_mem_cons.mpr ⟨hQ, hall⟩⟩

theorem many (hp : Reads ts p Q) : Reads ts (many p) fun as => ∀ a ∈ as, Q a :=
  .atCursor (f := fun c => Parser.upTo p c.rest) fun c => hp.upTo c.rest

theorem itemsUpTo (hp : Reads ts p Q) (bound : List Located) :
    Reads ts (itemsUpTo p bound) fun as => ∀ a ∈ as, Q a := by
  induction bound with
  | nil =>
    intro c c' as hc hr
    rw [result_itemsUpTo] at hr
    split at hr
    · obtain ⟨rfl, rfl⟩ := Prod.mk.inj (Option.some.inj hr)
      exact ⟨hc, fun a ha => nomatch ha⟩
    · next a c₁ h =>
      obtain ⟨hc₁, hQ⟩ := hp c c₁ a hc h
      split at hr
      · obtain ⟨rfl, rfl⟩ := Prod.mk.inj (Option.some.inj hr)
        exact ⟨hc₁, List.forall_mem_singleton.mpr hQ⟩
      · next u c₂ hcomma _ =>
        obtain ⟨rfl, rfl⟩ := Prod.mk.inj (Option.some.inj hr)
        exact ⟨(Reads.exactly _ c₁ c₂ u hc₁ hcomma).1, List.forall_mem_singleton.mpr hQ⟩
      · next heq => cases heq
  | cons t bound ih =>
    intro c c' as hc hr
    rw [result_itemsUpTo] at hr
    split at hr
    · obtain ⟨rfl, rfl⟩ := Prod.mk.inj (Option.some.inj hr)
      exact ⟨hc, fun a ha => nomatch ha⟩
    · next a c₁ h =>
      obtain ⟨hc₁, hQ⟩ := hp c c₁ a hc h
      split at hr
      · obtain ⟨rfl, rfl⟩ := Prod.mk.inj (Option.some.inj hr)
        exact ⟨hc₁, List.forall_mem_singleton.mpr hQ⟩
      · next heq => cases heq
      · next u c₂ _ _ hcomma heq =>
        obtain ⟨rfl, rfl⟩ := List.cons.inj heq
        obtain ⟨⟨bs, c₃⟩, hbs, heq⟩ := Option.map_eq_some_iff.mp hr
        obtain ⟨rfl, rfl⟩ := Prod.mk.inj heq
        have hc₂ := (Reads.exactly _ c₁ c₂ u hc₁ hcomma).1
        obtain ⟨hc₃, hall⟩ := ih c₂ c₃ bs hc₂ hbs
        exact ⟨hc₃, List.forall_mem_cons.mpr ⟨hQ, hall⟩⟩

theorem between (opening closing : Symbol) (hp : Reads ts p Q) :
    Reads ts (between opening closing p) Q :=
  (Reads.exactly _).bind fun _ _ => hp.bind fun _ hQ => (Reads.exactly _).bind fun _ _ => .pure hQ

theorem items (opening closing : Symbol) (hp : Reads ts p Q) :
    Reads ts (items opening closing p) fun as => ∀ a ∈ as, Q a :=
  .between opening closing
    (.atCursor (f := fun c => Parser.itemsUpTo p c.rest) fun c => hp.itemsUpTo c.rest)

end Reads

end Parser

end ReportTemplate.Syntax
