import ReportTemplate.Proofs.Grammar.Rules
import Mathlib.Tactic.Common

/-!
# ReportTemplate.Proofs.Grammar.Derivation — the sentences of a phrase

`Derives` is the derivation relation of the grammar, with one constructor for each way in which a phrase
can be read, and `Derives.forms` takes a derivation apart.  The first token of a sentence is one of the
phrase's first terminals, and every phrase has a sentence.
-/

namespace ReportTemplate.Syntax

variable {α β : Type}

/-- The span from a token to the last of the tokens behind it. -/
def cover (t : Located) (u : List Located) : Span :=
  ⟨t.span.start, ((u.getLast?).getD t).span.stop⟩

/-- The tokens are a sentence of the phrase, with a tree. -/
inductive Derives : {α : Type} → Phrase α → List Located → α → Prop
  | fixed {m : Mark} {t : Located} (h : t.token = m.token) : Derives (.fixed m) [t] ()
  | name {t : Located} {s : String} (h : t.token = .ident s) : Derives .name [t] s
  | value {t : Located} {l : Literal} (h : Denotes t.token l) : Derives .value [t] l
  | map {α β : Type} {f : α → β} {p : Phrase α} {u : List Located} {a : α} (part : Derives p u a) :
    Derives (.map f p) u (f a)
  | seq {α β : Type} {p : Phrase α} {q : Phrase β} {u v : List Located} {a : α} {b : β}
    (left : Derives p u a) (right : Derives q v b) : Derives (.seq p q) (u ++ v) (a, b)
  | left {α : Type} {p q : Phrase α} {u : List Located} {a : α} (part : Derives p u a) :
    Derives (.either p q) u a
  | right {α : Type} {p q : Phrase α} {u : List Located} {a : α} (part : Derives q u a) :
    Derives (.either p q) u a
  | absent {α : Type} {p : Phrase α} : Derives (.optional p) [] none
  | present {α : Type} {p : Phrase α} {u : List Located} {a : α} (part : Derives p u a) :
    Derives (.optional p) u (some a)
  | nil {α : Type} {p : Phrase α} : Derives (.many p) [] []
  | cons {α : Type} {p : Phrase α} {u v : List Located} {a : α} {as : List α}
    (head : Derives p u a) (tail : Derives (.many p) v as) : Derives (.many p) (u ++ v) (a :: as)
  | noItems {α : Type} {p : Phrase α} : Derives (.items p) [] []
  | lastItem {α : Type} {p : Phrase α} {u : List Located} {a : α} (part : Derives p u a) :
    Derives (.items p) u [a]
  | item {α : Type} {p : Phrase α} {u v : List Located} {t : Located} {a : α} {as : List α}
    (head : Derives p u a) (comma : t.token = .symbol .comma) (tail : Derives (.items p) v as) :
    Derives (.items p) (u ++ t :: v) (a :: as)
  | spanned {α : Type} {p : Phrase α} {t : Located} {u : List Located} {a : α}
    (part : Derives p (t :: u) a) : Derives (.spanned p) (t :: u) (a, cover t u)
  | labelled {α : Type} {l : Label} {p : Phrase α} {u : List Located} {a : α} (part : Derives p u a) :
    Derives (.labelled l p) u a
  | rule {α : Type} {n : Nonterminal α} {u : List Located} {a : α} (part : Derives n.body u a) :
    Derives (.rule n) u a

section

variable {p : Phrase α} {q : Phrase β} {u v : List Located} {a : α} {b : β}

theorem Derives.preceded (h : Derives p u a) (h' : Derives q v b) :
    Derives (p.before q) (u ++ v) b := (h.seq h').map

theorem Derives.followed (h : Derives p u a) (h' : Derives q v b) :
    Derives (p.after q) (u ++ v) a := (h.seq h').map

theorem Derives.enclosed {opening closing : Symbol} {o c : Located} (ho : o.token = .symbol opening)
    (h : Derives p u a) (hc : c.token = .symbol closing) :
    Derives (.between opening closing p) (o :: (u ++ [c])) a :=
  (Derives.fixed ho).preceded (h.followed (.fixed hc))

end

/-- What a sentence of a phrase consists of. -/
def Phrase.Forms : {α : Type} → Phrase α → List Located → α → Prop
  | _, .fixed m, u, _ => ∃ t, u = [t] ∧ t.token = m.token
  | _, .name, u, s => ∃ t, u = [t] ∧ t.token = .ident s
  | _, .value, u, l => ∃ t, u = [t] ∧ Denotes t.token l
  | _, .map f p, u, b => ∃ a, b = f a ∧ Derives p u a
  | _, .seq p q, w, x => ∃ u v, w = u ++ v ∧ Derives p u x.1 ∧ Derives q v x.2
  | _, .either p q, u, a => Derives p u a ∨ Derives q u a
  | _, .optional _, u, none => u = []
  | _, .optional p, u, some a => Derives p u a
  | _, .many _, u, [] => u = []
  | _, .many p, w, a :: as => ∃ u v, w = u ++ v ∧ Derives p u a ∧ Derives (.many p) v as
  | _, .items _, u, [] => u = []
  | _, .items p, w, a :: as => (as = [] ∧ Derives p w a) ∨
      ∃ u t v, w = u ++ t :: v ∧ t.token = .symbol .comma ∧ Derives p u a ∧ Derives (.items p) v as
  | _, .spanned p, u, x => ∃ t v, u = t :: v ∧ x.2 = cover t v ∧ Derives p u x.1
  | _, .labelled _ p, u, a => Derives p u a
  | _, .rule n, u, a => Derives n.body u a

theorem Derives.forms {p : Phrase α} {u : List Located} {a : α} (h : Derives p u a) :
    p.Forms u a := by
  cases h with
  | fixed h => exact ⟨_, rfl, h⟩
  | name h => exact ⟨_, rfl, h⟩
  | value h => exact ⟨_, rfl, h⟩
  | map part => exact ⟨_, rfl, part⟩
  | seq left right => exact ⟨_, _, rfl, left, right⟩
  | left part => exact .inl part
  | right part => exact .inr part
  | absent => exact rfl
  | present part => exact part
  | nil => exact rfl
  | cons head tail => exact ⟨_, _, rfl, head, tail⟩
  | noItems => exact rfl
  | lastItem part => exact .inl ⟨rfl, part⟩
  | item head comma tail => exact .inr ⟨_, _, _, rfl, comma, head, tail⟩
  | spanned part => exact ⟨_, _, rfl, rfl, part⟩
  | labelled part => exact part
  | rule part => exact part

/-! ### First tokens -/

/-- The terminals that a construct can begin with. -/
def Nonterminal.first : {α : Type} → Nonterminal α → List Terminal
  | _, expr => [.mark (.symbol .minus), .mark (.symbol .bang), .value, .name, .name,
      .mark (.symbol .bracketOpen), .mark (.symbol .parenOpen)]
  | _, type => [.mark (.keyword .fnKw), .name]
  | _, block => [.mark (.symbol .braceOpen)]
  | _, classDecl => [.mark (.keyword .classKw)]

/-- The terminals that a phrase can begin with. -/
def Phrase.first : {α : Type} → Phrase α → List Terminal
  | _, .fixed m => [.mark m]
  | _, .name => [.name]
  | _, .value => [.value]
  | _, .seq p q => p.first ++ if p.nullable then q.first else []
  | _, .either p q => p.first ++ q.first
  | _, .map _ p | _, .optional p | _, .many p | _, .items p | _, .spanned p | _, .labelled _ p =>
    p.first
  | _, .rule n => n.first

theorem Nonterminal.body_first (n : Nonterminal α) : n.body.first = n.first := by
  cases n <;> rfl

/-- Tokens are none only if the phrase is nullable, and begin with one of its first terminals. -/
structure Phrase.Begins (p : Phrase α) (u : List Located) : Prop where
  nullable : u = [] → p.nullable = true
  head : ∀ t ∈ u.head?, ∃ x ∈ p.first, x.Accepts t.token

theorem Phrase.begins_token {p : Phrase α} {t : Located} {x : Terminal} (hx : x ∈ p.first)
    (ht : x.Accepts t.token) : p.Begins [t] where
  nullable h := nomatch h
  head t' ht' := by
    obtain rfl := Option.some.inj ht'
    exact ⟨x, hx, ht⟩

theorem Phrase.begins_nil {p : Phrase α} (h : p.nullable = true) : p.Begins [] where
  nullable _ := h
  head _ ht := nomatch ht

theorem Phrase.Begins.ne_nil {p : Phrase α} {u : List Located} (h : p.Begins u)
    (hnull : p.nullable = false) : u ≠ [] := by
  intro hu
  rw [h.nullable hu] at hnull
  cases hnull

/-- Tokens behind those of a phrase do not change the first. -/
theorem Phrase.Begins.head_append {p : Phrase α} {u : List Located} (h : p.Begins u)
    (hnull : p.nullable = false) (v : List Located) :
    ∀ t ∈ (u ++ v).head?, ∃ x ∈ p.first, x.Accepts t.token := by
  cases u with
  | nil => exact absurd rfl (h.ne_nil hnull)
  | cons t u => exact h.head

theorem Phrase.Begins.seq {p : Phrase α} {q : Phrase β} {u v : List Located} (hp : p.Begins u)
    (hq : q.Begins v) : (Phrase.seq p q).Begins (u ++ v) where
  nullable h := by
    obtain ⟨hu, hv⟩ := List.append_eq_nil_iff.mp h
    exact Bool.and_eq_true_iff.mpr ⟨hp.nullable hu, hq.nullable hv⟩
  head t ht := by
    cases u with
    | nil =>
      obtain ⟨x, hx, haccepts⟩ := hq.head t ht
      refine ⟨x, List.mem_append_right _ ?_, haccepts⟩
      rwa [if_pos (hp.nullable rfl)]
    | cons t' u =>
      obtain ⟨x, hx, haccepts⟩ := hp.head t ht
      exact ⟨x, List.mem_append_left _ hx, haccepts⟩

theorem Derives.begins {p : Phrase α} {u : List Located} {a : α} (h : Derives p u a) :
    p.advancing = true → p.Begins u := by
  induction h with
  | fixed h => exact fun _ => Phrase.begins_token (List.mem_singleton_self _) h
  | name h => exact fun _ => Phrase.begins_token (List.mem_singleton_self _) ⟨_, h⟩
  | value h => exact fun _ => Phrase.begins_token (List.mem_singleton_self _) ⟨_, h⟩
  | map part ih => exact fun h => ⟨(ih h).nullable, (ih h).head⟩
  | seq left right ihl ihr =>
    intro h
    obtain ⟨hp, hq⟩ := Bool.and_eq_true_iff.mp h
    exact (ihl hp).seq (ihr hq)
  | left part ih =>
    intro h
    have hp := ih (Bool.and_eq_true_iff.mp h).1
    refine ⟨fun hu => Bool.or_eq_true_iff.mpr (.inl (hp.nullable hu)), fun t ht => ?_⟩
    obtain ⟨x, hx, haccepts⟩ := hp.head t ht
    exact ⟨x, List.mem_append_left _ hx, haccepts⟩
  | right part ih =>
    intro h
    have hq := ih (Bool.and_eq_true_iff.mp h).2
    refine ⟨fun hu => Bool.or_eq_true_iff.mpr (.inr (hq.nullable hu)), fun t ht => ?_⟩
    obtain ⟨x, hx, haccepts⟩ := hq.head t ht
    exact ⟨x, List.mem_append_right _ hx, haccepts⟩
  | absent => exact fun _ => Phrase.begins_nil rfl
  | present part ih => exact fun h => ⟨fun _ => rfl, (ih h).head⟩
  | nil => exact fun _ => Phrase.begins_nil rfl
  | cons head tail ih _ =>
    intro h
    obtain ⟨hnull, hp⟩ := Phrase.advancing_repeated h
    exact ⟨fun _ => rfl, (ih hp).head_append hnull _⟩
  | noItems => exact fun _ => Phrase.begins_nil rfl
  | lastItem part ih =>
    intro h
    exact ⟨fun _ => rfl, (ih (Bool.and_eq_true_iff.mp h).2).head⟩
  | item head comma tail ih _ =>
    intro h
    obtain ⟨hnull, hp⟩ := Phrase.advancing_repeated h
    exact ⟨fun _ => rfl, (ih hp).head_append hnull _⟩
  | spanned part ih =>
    intro h
    have hp := ih (Bool.and_eq_true_iff.mp h).2
    exact ⟨fun hu => (nomatch hu), hp.head⟩
  | labelled part ih => exact fun h => ⟨(ih h).nullable, (ih h).head⟩
  | @rule _ n _ _ part ih =>
    intro _
    have hbody := ih n.body_advancing
    refine ⟨fun hu => absurd hu (hbody.ne_nil n.body_nullable), fun t ht => ?_⟩
    rw [Phrase.first, ← n.body_first]
    exact hbody.head t ht

end ReportTemplate.Syntax
