import ReportTemplate.Proofs.Grammar.Exploration

/-!
# ReportTemplate.Proofs.Grammar.Locality — a run depends on the tokens that it tests

No token behind the furthest failed test is looked at: on other tokens that are the same up to there, the
parser of a phrase succeeds or fails alike and stops at the same place.
-/

namespace ReportTemplate.Syntax

open ReportTemplate.Syntax.Parser

variable {α β : Type}

/-- Two cursors at one place have the same tokens up to the place `last`. -/
structure Cursor.Alike (last : Nat) (c d : Cursor) : Prop where
  index : c.index = d.index
  tokens : c.rest.take (last + 1 - c.index) = d.rest.take (last + 1 - c.index)

/-- A run that tests no token behind the place `last`. -/
structure Within (last : Nat) (run : Option (α × Cursor) × Option Failure) : Prop where
  failure : ∀ f ∈ run.2, f.index ≤ last
  stop : ∀ a c, run.1 = some (a, c) → c.index ≤ last

/-- Two runs both fail, or stop at cursors that are alike. -/
def StopsLike (last : Nat) (r r' : Option (α × Cursor)) : Prop :=
  Option.Rel (fun x y => x.2.Alike last y.2) r r'

theorem Failure.index_le_of_merge {last : Nat} {e e' : Option Failure}
    (h : ∀ f ∈ Failure.merge e e', f.index ≤ last) :
    (∀ f ∈ e, f.index ≤ last) ∧ ∀ f ∈ e', f.index ≤ last := by
  rcases e with _ | ⟨i, as⟩
  · exact ⟨nofun, h⟩
  rcases e' with _ | ⟨j, bs⟩
  · exact ⟨h, nofun⟩
  have hmax : i ≤ last ∧ j ≤ last := by
    rcases Nat.lt_trichotomy i j with hij | rfl | hij
    · have hj := h _ (Failure.merge_of_lt hij as bs)
      exact ⟨Nat.le_trans (Nat.le_of_lt hij) hj, hj⟩
    · have hi := h _ (Failure.merge_of_eq i as bs)
      exact ⟨hi, hi⟩
    · have hi := h _ (Failure.merge_of_gt hij as bs)
      exact ⟨hi, Nat.le_trans (Nat.le_of_lt hij) hi⟩
  exact ⟨fun f hf => Option.some.inj hf ▸ hmax.1, fun f hf => Option.some.inj hf ▸ hmax.2⟩

theorem Within.of_merge {last : Nat} {r : Option (α × Cursor)} {e e' : Option Failure}
    (h : Within last (r, Failure.merge e e')) : (∀ f ∈ e, f.index ≤ last) ∧ Within last (r, e') := by
  obtain ⟨hleft, hright⟩ := Failure.index_le_of_merge h.failure
  exact ⟨hleft, hright, h.stop⟩

/-- What a run gives does not matter, only where it stops. -/
theorem Within.giving {last : Nat} {a : α} {c : Cursor} {e : Option Failure} (b : β)
    (h : Within last (some (a, c), e)) : Within last (some (b, c), e) := by
  refine ⟨h.failure, fun b' c' hr => ?_⟩
  obtain ⟨-, rfl⟩ := Prod.mk.inj (Option.some.inj hr)
  exact h.stop a c rfl

/-- A run tests the place where it begins, or stops there. -/
theorem Phrase.Found.index_le {p : Phrase α} {c : Cursor} {last : Nat}
    {run : Option (α × Cursor) × Option Failure} (h : p.Found c run) (hw : Within last run) :
    c.index ≤ last := by
  cases hrun : run.1 with
  | none =>
    obtain ⟨f, hf⟩ := Option.isSome_iff_exists.mp (h.failure hrun)
    obtain ⟨x, s, -, hindex, -⟩ := h.explained f hf
    have := hw.failure f hf
    omega
  | some r =>
    obtain ⟨a, c'⟩ := r
    obtain ⟨u, v, -, rfl, -⟩ := h.sentence a c' hrun
    exact Nat.le_trans (Nat.le_add_right _ _) (hw.stop a _ hrun)

namespace StopsLike

variable {last : Nat} {r r' : Option (α × Cursor)}

theorem of_none (h : StopsLike last none r') : r' = none := by
  cases h
  rfl

theorem of_some {x : α × Cursor} (h : StopsLike last (some x) r') :
    ∃ y, r' = some y ∧ x.2.Alike last y.2 := by
  cases h with
  | some halike => exact ⟨_, rfl, halike⟩

theorem bind {f : α × Cursor → Option (β × Cursor)} (h : StopsLike last r r')
    (hf : ∀ x y, r = some x → x.2.Alike last y.2 → StopsLike last (f x) (f y)) :
    StopsLike last (r.bind f) (r'.bind f) := by
  cases h with
  | none => exact .none
  | some halike => exact hf _ _ rfl halike

theorem map {f g : α × Cursor → β × Cursor} (h : StopsLike last r r') (hf : ∀ x, (f x).2 = x.2)
    (hg : ∀ x, (g x).2 = x.2) : StopsLike last (r.map f) (r'.map g) := by
  cases h with
  | none => exact .none
  | some halike => exact .some (by rwa [hf, hg])

theorem token {wanted : List String} {f : Token → Option α} {c d : Cursor} (h : c.Alike last d)
    (hc : c.index ≤ last) : StopsLike last (result (token wanted f) c) (result (token wanted f) d) := by
  obtain ⟨k, hk⟩ := Nat.exists_eq_add_of_le hc
  have htokens := h.tokens
  have hindex := h.index
  rw [show last + 1 - c.index = k + 1 by omega] at htokens
  rw [result_token, result_token]
  cases hrest : c.rest with
  | nil =>
    rw [hrest] at htokens
    cases hrest' : d.rest with
    | nil => exact .none
    | cons t rest =>
      rw [hrest'] at htokens
      cases htokens
  | cons t rest =>
    rw [hrest] at htokens
    cases hrest' : d.rest with
    | nil =>
      rw [hrest'] at htokens
      cases htokens
    | cons t' rest' =>
      rw [hrest', List.take_succ_cons, List.take_succ_cons] at htokens
      obtain ⟨rfl, htokens⟩ := List.cons.inj htokens
      dsimp only
      cases f t.token with
      | none => exact .none
      | some a =>
        refine .some ⟨by rw [hindex], ?_⟩
        dsimp only
        rwa [show last + 1 - (c.index + 1) = k by omega]

end StopsLike

/-- What a sequence tests are the tests of its parts. -/
theorem Within.of_seq {last : Nat} {p : Parser α} {q : Parser β} {c : Cursor}
    (h : Within last ((p >>= fun a => q >>= fun b => pure (a, b)) c)) :
    (∀ f ∈ (p c).2, f.index ≤ last) ∧ ∀ a c', result p c = some (a, c') → Within last (q c') := by
  rcases seq_cases p q c with ⟨e, hrun, heq⟩ | ⟨a, c', e, e', hrun, hrun', heq⟩ |
      ⟨a, c', e, b, c'', e', hrun, hrun', heq⟩
  · rw [heq] at h
    rw [result, hrun]
    exact ⟨h.failure, nofun⟩
  · rw [heq] at h
    rw [result, hrun]
    obtain ⟨hleft, hright⟩ := h.of_merge
    refine ⟨hleft, fun a₁ c₁ hr => ?_⟩
    obtain ⟨rfl, rfl⟩ := Prod.mk.inj (Option.some.inj hr)
    rw [hrun']
    exact ⟨hright.failure, nofun⟩
  · rw [heq] at h
    rw [result, hrun]
    obtain ⟨hleft, hright⟩ := h.of_merge
    refine ⟨hleft, fun a₁ c₁ hr => ?_⟩
    obtain ⟨rfl, rfl⟩ := Prod.mk.inj (Option.some.inj hr)
    rw [hrun']
    exact hright.giving b

/-- What a repetition tests are the tests of its first round and of the other rounds. -/
theorem Within.of_many {last : Nat} {p : Parser α} {c : Cursor} (hp : Consumes 1 p)
    (h : Within last (many p c)) :
    (∀ f ∈ (p c).2, f.index ≤ last) ∧ ∀ a c', result p c = some (a, c') → Within last (many p c') := by
  rcases many_cases hp c with ⟨e, hrun, heq⟩ | ⟨a, c', e, as, c'', e', hrun, hrun', heq⟩
  · rw [heq] at h
    rw [result, hrun]
    exact ⟨h.failure, nofun⟩
  · rw [heq] at h
    rw [result, hrun]
    obtain ⟨hleft, hright⟩ := h.of_merge
    refine ⟨hleft, fun a₁ c₁ hr => ?_⟩
    obtain ⟨rfl, rfl⟩ := Prod.mk.inj (Option.some.inj hr)
    rw [hrun']
    exact hright.giving as

theorem Within.of_items {last : Nat} {p : Parser α} {c : Cursor} (hp : Consumes 1 p)
    (h : Within last (itemsUpTo p c.rest c)) :
    (∀ f ∈ (p c).2, f.index ≤ last) ∧ ∀ a c', result p c = some (a, c') →
      (∀ f ∈ (symbol .comma c').2, f.index ≤ last) ∧ ∀ c'', result (symbol .comma) c' = some ((), c'') →
        Within last (itemsUpTo p c''.rest c'') := by
  rcases items_cases hp c with ⟨e, hrun, heq⟩ | ⟨a, c', e, e', hrun, hcomma, heq⟩ |
      ⟨a, c', e, c'', e', as, c₃, e'', hrun, hcomma, hrun', heq⟩
  · rw [heq] at h
    rw [result, hrun]
    exact ⟨h.failure, nofun⟩
  · rw [heq] at h
    rw [result, hrun]
    obtain ⟨hleft, hright⟩ := h.of_merge
    refine ⟨hleft, fun a₁ c₁ hr => ?_⟩
    obtain ⟨rfl, rfl⟩ := Prod.mk.inj (Option.some.inj hr)
    rw [result, hcomma]
    exact ⟨hright.failure, nofun⟩
  · rw [heq] at h
    rw [result, hrun]
    obtain ⟨hround, htail⟩ := h.of_merge
    obtain ⟨hleft, hright⟩ := Failure.index_le_of_merge hround
    refine ⟨hleft, fun a₁ c₁ hr => ?_⟩
    obtain ⟨rfl, rfl⟩ := Prod.mk.inj (Option.some.inj hr)
    rw [result, hcomma]
    refine ⟨hright, fun c₂ hr => ?_⟩
    obtain ⟨-, rfl⟩ := Prod.mk.inj (Option.some.inj hr)
    rw [hrun']
    exact htail.giving as

/-- Where less than some number of tokens is left, the parser of a phrase does not look further than it
tells. -/
def Phrase.Local (n : Nat) {α : Type} (p : Phrase α) : Prop :=
  p.advancing = true → p.LabelsFit → ∀ (c d : Cursor) (last : Nat), c.rest.length < n →
    c.Alike last d → Within last (p.parser readers c) →
    StopsLike last (result (p.parser readers) c) (result (p.parser readers) d)

namespace Phrase.Local

variable {n : Nat} {p : Phrase α} {q : Phrase β}

theorem map (f : α → β) (hp : p.Local n) : (Phrase.map f p).Local n := by
  intro hadv hfit c d last hc halike hw
  replace hw : Within last ((p.parser readers >>= fun a => pure (f a)) c) := hw
  rw [map_run] at hw
  have hlike := hp hadv hfit c d last hc halike
    ⟨hw.failure, fun a c' hr => hw.stop (f a) c' (Option.map_eq_some_iff.mpr ⟨_, hr, rfl⟩)⟩
  rw [Phrase.result_map, Phrase.result_map]
  exact hlike.map (fun _ => rfl) fun _ => rfl

theorem seq {k : Nat} (hn : n ≤ k ∨ p.nullable = false ∧ n ≤ k + 1) (hp : p.Local n) (hq : q.Local k) :
    (Phrase.seq p q).Local n := by
  intro hadv hfit c d last hc halike hw
  obtain ⟨hap, haq⟩ := Bool.and_eq_true_iff.mp hadv
  obtain ⟨hfailure, hright⟩ := Within.of_seq hw
  have hleft : Within last (p.parser readers c) :=
    ⟨hfailure, fun a c' hr => (q.found haq hfit.2 c').index_le (hright a c' hr)⟩
  rw [Phrase.result_seq, Phrase.result_seq]
  refine (hp hap hfit.1 c d last hc halike hleft).bind fun x y hx hxy => ?_
  have hless := p.parser_consumes readers_consuming hap c x.1 x.2 hx
  have hk : x.2.rest.length < k := by
    rcases hn with hn | ⟨hnull, hn⟩
    · omega
    · rw [Phrase.least_of_nullable hnull] at hless
      omega
  exact (hq haq hfit.2 x.2 y.2 last hk hxy (hright x.1 x.2 hx)).map (fun _ => rfl) fun _ => rfl

theorem either {q : Phrase α} (hp : p.Local n) (hq : q.Local n) : (Phrase.either p q).Local n := by
  intro hadv hfit c d last hc halike hw
  obtain ⟨hap, haq⟩ := Bool.and_eq_true_iff.mp hadv
  replace hw : Within last (Parser.either (p.parser readers) (q.parser readers) c) := hw
  rw [Phrase.result_either, Phrase.result_either]
  rcases either_cases (p.parser readers) (q.parser readers) c with ⟨r, e, hrun, heq⟩ | ⟨e, hrun, heq⟩
  · rw [heq] at hw
    have hlike := hp hap hfit.1 c d last hc halike (by rwa [hrun])
    rw [result, hrun] at hlike ⊢
    obtain ⟨y, hy, hxy⟩ := hlike.of_some
    rw [hy]
    exact .some hxy
  · rw [heq] at hw
    obtain ⟨hleft, hright⟩ := Failure.index_le_of_merge hw.failure
    have hlike := hp hap hfit.1 c d last hc halike (by rw [hrun]; exact ⟨hleft, nofun⟩)
    have hlike' := hq haq hfit.2 c d last hc halike ⟨hright, hw.stop⟩
    rw [result, hrun] at hlike
    rw [show result (p.parser readers) c = none from congrArg Prod.fst hrun, hlike.of_none]
    exact hlike'

theorem optional (hp : p.Local n) : (Phrase.optional p).Local n := by
  intro hadv hfit c d last hc halike hw
  replace hw : Within last (Parser.optional (p.parser readers) c) := hw
  have hwithin : Within last (p.parser readers c) := by
    rcases optional_cases (p.parser readers) c with ⟨a, c', e, hrun, heq⟩ | ⟨e, hrun, heq⟩
    · rw [heq] at hw
      rw [hrun]
      exact hw.giving a
    · rw [heq] at hw
      rw [hrun]
      exact ⟨hw.failure, nofun⟩
  have hlike := hp hadv hfit c d last hc halike hwithin
  rw [Phrase.result_optional, Phrase.result_optional]
  generalize result (p.parser readers) c = r, result (p.parser readers) d = r' at hlike ⊢
  cases hlike with
  | none => exact .some halike
  | some hxy => exact .some hxy

theorem spanned (hp : p.Local n) : (Phrase.spanned p).Local n := by
  intro hadv hfit c d last hc halike hw
  have hlike := hp (Bool.and_eq_true_iff.mp hadv).2 hfit c d last hc halike
    ⟨hw.failure, fun a c' hr => hw.stop _ c' (Option.map_eq_some_iff.mpr ⟨_, hr, rfl⟩)⟩
  exact hlike.map (fun _ => rfl) fun _ => rfl

theorem labelled (l : Label) (hp : p.Local n) : (Phrase.labelled l p).Local n := by
  intro hadv hfit c d last hc halike hw
  refine hp hadv hfit.2 c d last hc halike ⟨fun f hf => ?_, hw.stop⟩
  have hfailure : ∀ g ∈ Failure.relabel c.index l.text (p.parser readers c).2, g.index ≤ last := hw.failure
  rw [Option.mem_def.mp hf] at hfailure
  unfold Failure.relabel at hfailure
  dsimp only at hfailure
  split at hfailure
  · next hindex => exact hindex ▸ hfailure _ rfl
  · exact hfailure _ rfl

/-- By induction on the tokens that are left: both repetitions go on, or both end. -/
theorem many (hnull : p.nullable = false) (hp : p.Local n) : (Phrase.many p).Local n := by
  intro hadv hfit c
  have hap := (Bool.and_eq_true_iff.mp hadv).2
  have hconsumes := Phrase.parser_advances readers_consuming hap hnull
  induction hk : c.rest.length using Nat.strongRecOn generalizing c with
  | ind k ih =>
    intro d last hc halike hw
    obtain ⟨hfailure, htail⟩ := Within.of_many hconsumes hw
    have hround : Within last (p.parser readers c) := ⟨hfailure, fun a c' hr =>
      ((Phrase.many p).found hadv hfit c').index_le (htail a c' hr)⟩
    have hlike := hp hap hfit c d last (hk ▸ hc) halike hround
    show StopsLike last (result (Parser.many (p.parser readers)) c)
      (result (Parser.many (p.parser readers)) d)
    rw [result_many hconsumes, result_many hconsumes]
    rcases hr : result (p.parser readers) c with _ | ⟨a, c'⟩
    · rw [hr] at hlike
      rw [hlike.of_none]
      exact .some halike
    · have hless : c'.rest.length < k := hk ▸ hconsumes c a c' hr
      rw [hr] at hlike
      obtain ⟨y, hy, hnext⟩ := hlike.of_some
      rw [hy]
      exact (ih _ hless c' rfl _ last (Nat.lt_trans hless hc) hnext (htail a c' hr)).map
        (fun _ => rfl) fun _ => rfl

theorem items (hnull : p.nullable = false) (hp : p.Local n) : (Phrase.items p).Local n := by
  intro hadv hfit c
  have hap := (Bool.and_eq_true_iff.mp hadv).2
  have hconsumes := Phrase.parser_advances readers_consuming hap hnull
  induction hk : c.rest.length using Nat.strongRecOn generalizing c with
  | ind k ih =>
    intro d last hc halike hw
    obtain ⟨hfailure, htail⟩ := Within.of_items hconsumes hw
    have hcomma : ∀ a c', result (p.parser readers) c = some (a, c') → c'.index ≤ last := by
      intro a c' hr
      obtain ⟨hfailure', htail'⟩ := htail a c' hr
      have hwithin : Within last (Parser.symbol .comma c') := ⟨hfailure', fun _ c'' hr' =>
        ((Phrase.items p).found hadv hfit c'').index_le (htail' c'' hr')⟩
      exact ((Phrase.symbol .comma).found rfl trivial c').index_le hwithin
    have hlike := hp hap hfit c d last (hk ▸ hc) halike ⟨hfailure, hcomma⟩
    show StopsLike last (result (Parser.itemsUpTo (p.parser readers) c.rest) c)
      (result (Parser.itemsUpTo (p.parser readers) d.rest) d)
    rw [result_items hconsumes, result_items hconsumes]
    rcases hr : result (p.parser readers) c with _ | ⟨a, c'⟩
    · rw [hr] at hlike
      rw [hlike.of_none]
      exact .some halike
    · have hless : c'.rest.length < k := hk ▸ hconsumes c a c' hr
      rw [hr] at hlike
      obtain ⟨y, hy, hnext⟩ := hlike.of_some
      rw [hy]
      have hlike' : StopsLike last (result (Parser.symbol .comma) c')
        (result (Parser.symbol .comma) y.2) := .token hnext (hcomma a c' hr)
      dsimp only
      rcases hr' : result (Parser.symbol .comma) c' with _ | ⟨_, c''⟩
      · rw [hr'] at hlike'
        rw [hlike'.of_none]
        exact .some hnext
      · have hless' : c''.rest.length < k := by
          have := Consumes.token _ _ c' _ c'' hr'
          omega
        rw [hr'] at hlike'
        obtain ⟨z, hz, hnext'⟩ := hlike'.of_some
        rw [hz]
        exact (ih _ hless' c'' rfl _ last (Nat.lt_trans hless' hc) hnext'
          ((htail a c' hr).2 c'' hr')).map (fun _ => rfl) fun _ => rfl

end Phrase.Local

theorem compositional_local : Compositional Phrase.Local where
  mono hnk h hadv hfit c d last hc := h hadv hfit c d last (Nat.lt_of_lt_of_le hc hnk)
  fixed _ m hadv hfit c _ _ _ halike hw :=
    .token halike (((Phrase.fixed m).found hadv hfit c).index_le hw)
  name _ hadv hfit c _ _ _ halike hw := .token halike ((Phrase.name.found hadv hfit c).index_le hw)
  value _ hadv hfit c _ _ _ halike hw := .token halike ((Phrase.value.found hadv hfit c).index_le hw)
  map f _ h := h.map f
  seq _ hn hp hq := hp.seq hn hq
  either hp hq := hp.either hq
  optional h := h.optional
  many _ hnull h := h.many hnull
  items _ hnull h := h.items hnull
  spanned _ _ h := h.spanned
  labelled l _ h := h.labelled l

/-- The parser of a phrase does not look further than it tells. -/
theorem Phrase.stopsLike (p : Phrase α) (hadv : p.advancing = true) (hfit : p.LabelsFit)
    {c d : Cursor} {last : Nat} (halike : c.Alike last d) (hw : Within last (p.parser readers c)) :
    StopsLike last (result (p.parser readers) c) (result (p.parser readers) d) := by
  refine compositional_local.all ?_ ?_ (c.rest.length + 1) p hadv hadv hfit c d last
    (Nat.lt_succ_self _) halike hw
  · exact fun m _ _ c _ _ hc => absurd hc (Nat.not_lt_zero _)
  · intro n β m hbody _ _ c d last hc halike hw
    show StopsLike last (result (readers.at m) c) (result (readers.at m) d)
    replace hw : Within last (readers.at m c) := hw
    rw [readers_at] at hw ⊢
    exact hbody m.body_advancing m.body_labelsFit c d last hc halike hw

end ReportTemplate.Syntax
