import ReportTemplate.Proofs.Grammar.Derivation

/-!
# ReportTemplate.Proofs.Grammar.Parts — induction over the rules of the grammar

`Parts G` tells what a sentence of a phrase consists of, down to the constructs that occur inside
themselves, of which `G` is known.  What passes from the parts of each rule to its construct holds of
every sentence.
-/

namespace ReportTemplate.Syntax

variable {α β : Type}

/-- What is known of the sentences of the constructs and their trees. -/
abbrev Known := ∀ {α : Type}, Nonterminal α → List Located → α → Prop

/-- Trees of parts that stand behind one another among tokens. -/
inductive Row (R : List Located → α → Prop) : List Located → List α → Prop
  | nil {u : List Located} : Row R u []
  | cons {u v : List Located} {a : α} {as : List α} (gap : List Located) (head : R u a)
    (tail : Row R v as) : Row R (u ++ (gap ++ v)) (a :: as)

/-- The parts of a sentence, down to the constructs. -/
def Phrase.Parts (G : Known) : {α : Type} → Phrase α → List Located → α → Prop
  | _, .fixed m, u, _ => ∃ t, u = [t] ∧ t.token = m.token
  | _, .name, u, s => ∃ t, u = [t] ∧ t.token = .ident s
  | _, .value, u, l => ∃ t, u = [t] ∧ Denotes t.token l
  | _, .map f p, u, b => ∃ a, b = f a ∧ p.Parts G u a
  | _, .seq p q, w, x => ∃ u v, w = u ++ v ∧ p.Parts G u x.1 ∧ q.Parts G v x.2
  | _, .either p q, u, a => p.Parts G u a ∨ q.Parts G u a
  | _, .optional p, u, o => ∀ a ∈ o, p.Parts G u a
  | _, .many p, u, as | _, .items p, u, as => Row (p.Parts G) u as
  | _, .spanned p, u, x => ∃ t v, u = t :: v ∧ x.2 = cover t v ∧ p.Parts G u x.1
  | _, .labelled _ p, u, a => p.Parts G u a
  | _, .rule n, u, a => G n u a

/-- What passes from the parts of a rule to its construct holds of every sentence. -/
theorem Derives.parts {G : Known}
    (hG : ∀ {α : Type} (n : Nonterminal α) (u : List Located) (a : α), n.body.Parts @G u a → G n u a)
    {p : Phrase α} {u : List Located} {a : α} (h : Derives p u a) : p.Parts @G u a := by
  induction h with
  | fixed h => exact ⟨_, rfl, h⟩
  | name h => exact ⟨_, rfl, h⟩
  | value h => exact ⟨_, rfl, h⟩
  | map _ ih => exact ⟨_, rfl, ih⟩
  | seq _ _ ihl ihr => exact ⟨_, _, rfl, ihl, ihr⟩
  | left _ ih => exact .inl ih
  | right _ ih => exact .inr ih
  | absent => exact nofun
  | present _ ih =>
    intro a ha
    obtain rfl := Option.some.inj ha
    exact ih
  | nil => exact .nil
  | cons _ _ ihl ihr => exact .cons [] ihl ihr
  | noItems => exact .nil
  | @lastItem _ p u a _ ih =>
    rw [← List.append_nil u]
    exact .cons [] ih .nil
  | @item _ p u v t a as _ _ _ ihl ihr => exact .cons [t] ihl ihr
  | spanned _ ih => exact ⟨_, _, rfl, rfl, ih⟩
  | labelled _ ih => exact ih
  | rule _ ih => exact hG _ _ _ ih

end ReportTemplate.Syntax
