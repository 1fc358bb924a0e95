import ReportTemplate.Proofs.Grammar.Rules

/-!
# ReportTemplate.Proofs.Grammar.Compositional — induction over phrases and the tokens that are left

A property of phrases that is measured by how many tokens are left, and that passes from the parts of a
phrase to the phrase, holds of every phrase: a rule is used in its own right side only behind a token,
so one token less is left there.
-/

namespace ReportTemplate.Syntax

/-- A property of phrases where less than some number of tokens is left follows from that of their
parts; the right part of a sequence has one token less if the left one has a token. -/
structure Compositional (J : Nat → {α : Type} → Phrase α → Prop) : Prop where
  mono {n k : Nat} {α : Type} {p : Phrase α} (hnk : n ≤ k) (h : J k p) : J n p
  fixed (n : Nat) (m : Mark) : J n (.fixed m)
  name (n : Nat) : J n .name
  value (n : Nat) : J n .value
  map {n : Nat} {α β : Type} (f : α → β) {p : Phrase α} (h : J n p) : J n (.map f p)
  seq {n k : Nat} {α β : Type} {p : Phrase α} {q : Phrase β} (hadv : p.advancing = true)
    (hn : n ≤ k ∨ p.nullable = false ∧ n ≤ k + 1) (hp : J n p) (hq : J k q) : J n (.seq p q)
  either {n : Nat} {α : Type} {p q : Phrase α} (hp : J n p) (hq : J n q) : J n (.either p q)
  optional {n : Nat} {α : Type} {p : Phrase α} (h : J n p) : J n (.optional p)
  many {n : Nat} {α : Type} {p : Phrase α} (hadv : p.advancing = true) (hnull : p.nullable = false)
    (h : J n p) : J n (.many p)
  items {n : Nat} {α : Type} {p : Phrase α} (hadv : p.advancing = true) (hnull : p.nullable = false)
    (h : J n p) : J n (.items p)
  spanned {n : Nat} {α : Type} {p : Phrase α} (hadv : p.advancing = true) (hnull : p.nullable = false)
    (h : J n p) : J n (.spanned p)
  labelled {n : Nat} {α : Type} (l : Label) {p : Phrase α} (h : J n p) : J n (.labelled l p)

namespace Compositional

variable {J : Nat → {α : Type} → Phrase α → Prop}

/-- From the rules to all phrases, and one token further to phrases that use rules behind a token. -/
theorem guarded (hJ : Compositional J) {n : Nat} (hrule : ∀ {α : Type} (m : Nonterminal α), J n (.rule m))
    {α : Type} (p : Phrase α) (hadv : p.advancing = true) :
    J n p ∧ (p.guarded = true → J (n + 1) p) := by
  induction p with
  | fixed m => exact ⟨hJ.fixed _ m, fun _ => hJ.fixed _ m⟩
  | name => exact ⟨hJ.name _, fun _ => hJ.name _⟩
  | value => exact ⟨hJ.value _, fun _ => hJ.value _⟩
  | map f p ih => exact ⟨hJ.map f (ih hadv).1, fun hg => hJ.map f ((ih hadv).2 hg)⟩
  | seq p q ihp ihq =>
    obtain ⟨hap, haq⟩ := Bool.and_eq_true_iff.mp hadv
    refine ⟨hJ.seq hap (.inl (Nat.le_refl n)) (ihp hap).1 (ihq haq).1, fun hg => ?_⟩
    obtain ⟨hgp, hgq⟩ := Bool.and_eq_true_iff.mp hg
    rcases Bool.or_eq_true_iff.mp hgq with hnull | hgq
    · exact hJ.seq hap (.inr ⟨Bool.not_eq_true' _ ▸ hnull, Nat.le_refl _⟩) ((ihp hap).2 hgp) (ihq haq).1
    · exact hJ.seq hap (.inl (Nat.le_refl _)) ((ihp hap).2 hgp) ((ihq haq).2 hgq)
  | either p q ihp ihq =>
    obtain ⟨hap, haq⟩ := Bool.and_eq_true_iff.mp hadv
    refine ⟨hJ.either (ihp hap).1 (ihq haq).1, fun hg => ?_⟩
    obtain ⟨hgp, hgq⟩ := Bool.and_eq_true_iff.mp hg
    exact hJ.either ((ihp hap).2 hgp) ((ihq haq).2 hgq)
  | optional p ih => exact ⟨hJ.optional (ih hadv).1, fun hg => hJ.optional ((ih hadv).2 hg)⟩
  | many p ih =>
    obtain ⟨hnull, hap⟩ := Phrase.advancing_repeated hadv
    exact ⟨hJ.many hap hnull (ih hap).1, fun hg => hJ.many hap hnull ((ih hap).2 hg)⟩
  | items p ih =>
    obtain ⟨hnull, hap⟩ := Phrase.advancing_repeated hadv
    exact ⟨hJ.items hap hnull (ih hap).1, fun hg => hJ.items hap hnull ((ih hap).2 hg)⟩
  | spanned p ih =>
    obtain ⟨hnull, hap⟩ := Phrase.advancing_repeated hadv
    exact ⟨hJ.spanned hap hnull (ih hap).1, fun hg => hJ.spanned hap hnull ((ih hap).2 hg)⟩
  | labelled l p ih => exact ⟨hJ.labelled l (ih hadv).1, fun hg => hJ.labelled l ((ih hadv).2 hg)⟩
  | rule m => exact ⟨hrule m, fun hg => nomatch hg⟩

/-- A property that passes to a rule from its right side, and holds where nothing can be left, holds of
every phrase. -/
theorem all (hJ : Compositional J) (hzero : ∀ {α : Type} (m : Nonterminal α), J 0 (.rule m))
    (hrule : ∀ {n : Nat} {α : Type} (m : Nonterminal α), J n m.body → J n (.rule m)) (n : Nat)
    {α : Type} (p : Phrase α) (hadv : p.advancing = true) : J n p := by
  have hrules : ∀ {β : Type} (m : Nonterminal β), J n (.rule m) := by
    induction n with
    | zero => exact hzero
    | succ n ih =>
      exact fun m => hrule m ((hJ.guarded ih m.body m.body_advancing).2 m.body_guarded)
  exact (hJ.guarded hrules p hadv).1

end Compositional

end ReportTemplate.Syntax
