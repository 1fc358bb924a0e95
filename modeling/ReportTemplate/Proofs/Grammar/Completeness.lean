import ReportTemplate.Proofs.Grammar.Exploration
import ReportTemplate.Proofs.Grammar.Lookahead

/-!
# ReportTemplate.Proofs.Grammar.Completeness — every sentence is read

Where a sentence of a phrase ends, the parser of the phrase reads it, with the tree that derives it.  So a
sentence has one tree.
-/

namespace ReportTemplate.Syntax

open ReportTemplate.Syntax.Parser

variable {α β : Type} {p : Phrase α} {c : Cursor}

theorem Phrase.result_of_blocks (hadv : p.advancing = true) (hfit : p.LabelsFit)
    (h : p.Blocks c.rest) : result (p.parser readers) c = none := by
  refine Option.eq_none_iff_forall_ne_some.mpr ?_
  rintro ⟨a, c'⟩ hr
  obtain ⟨u, v, hrest, -, hu⟩ := (p.found hadv hfit c).sentence a c' hr
  exact h u a hu ⟨v, hrest.symm⟩

/-- A token that is taken. -/
theorem result_token_cons {wanted : List String} {f : Token → Option α} {t : Located} {v : List Located}
    {a : α} (hrest : c.rest = t :: v) (ht : f t.token = some a) :
    result (token wanted f) c = some (a, c.past [t] v) := by
  rw [result_token, hrest]
  dsimp only
  rw [ht]
  rfl

theorem result_symbol_cons {k : Symbol} {t : Located} {v : List Located} (hrest : c.rest = t :: v)
    (ht : t.token = .symbol k) : result (Parser.symbol k) c = some ((), c.past [t] v) :=
  result_token_cons hrest (if_pos ht)

theorem result_symbol_of_clear {k : Symbol} (h : Clear [⟨.mark (.symbol k), none⟩] c.rest) :
    result (Parser.symbol k) c = none := by
  refine Option.eq_none_iff_forall_ne_some.mpr ?_
  rintro ⟨a, c'⟩ hr
  obtain ⟨t, v, hrest, ht, -⟩ := Cursor.past_of_exactly hr
  exact h _ (List.mem_singleton_self _) ⟨t, v, hrest, ht, nofun⟩

/-- Where the phrase ends behind these tokens, its parser reads them as the tree. -/
def Phrase.Takes (p : Phrase α) (u : List Located) (a : α) : Prop :=
  p.advancing = true → p.LabelsFit → ∀ (c : Cursor) (v : List Located), c.rest = u ++ v → p.Ends v →
    result (p.parser readers) c = some (a, c.past u v)

theorem Phrase.consumes_repeated (h : (!p.nullable && p.advancing) = true) :
    p.advancing = true ∧ Consumes 1 (p.parser readers) := by
  obtain ⟨hnull, hap⟩ := Phrase.advancing_repeated h
  exact ⟨hap, Phrase.parser_advances readers_consuming hap hnull⟩

namespace Phrase.Takes

variable {q : Phrase β} {u u' : List Located} {a : α} {b : β} {as : List α}

theorem map {f : α → β} (part : p.Takes u a) : (Phrase.map f p).Takes u (f a) := by
  intro hadv hfit c v hrest hends
  rw [Phrase.result_map, part hadv hfit c v hrest hends]
  rfl

theorem seq (left : p.Takes u a) (right : q.Takes u' b) (hright : Derives q u' b) :
    (Phrase.seq p q).Takes (u ++ u') (a, b) := by
  intro hadv hfit c v hrest hends
  obtain ⟨hap, haq⟩ := Bool.and_eq_true_iff.mp hadv
  rw [List.append_assoc] at hrest
  rw [Phrase.result_seq, left hap hfit.1 c (u' ++ v) hrest (hends.2 u' b hright), Option.bind_some,
    right haq hfit.2 (c.past u (u' ++ v)) v rfl hends.1, Cursor.past_past]
  rfl

theorem left {q : Phrase α} (part : p.Takes u a) : (Phrase.either p q).Takes u a := by
  intro hadv hfit c v hrest hends
  rw [Phrase.result_either, part (Bool.and_eq_true_iff.mp hadv).1 hfit.1 c v hrest hends.1]
  rfl

theorem right {q : Phrase α} (part : q.Takes u a) (hpart : Derives q u a) :
    (Phrase.either p q).Takes u a := by
  intro hadv hfit c v hrest hends
  obtain ⟨hap, haq⟩ := Bool.and_eq_true_iff.mp hadv
  have hblocks := hends.2.2 u a hpart
  rw [Phrase.result_either, Phrase.result_of_blocks hap hfit.1 (hrest ▸ hblocks),
    part haq hfit.2 c v hrest hends.2.1]
  rfl

theorem absent : (Phrase.optional p).Takes [] none := by
  intro hadv hfit c v hrest hends
  obtain rfl : c.rest = v := hrest
  replace hadv : p.advancing = true := hadv
  rw [Phrase.result_optional, Phrase.result_of_blocks hadv hfit hends.1]
  rfl

theorem present (part : p.Takes u a) : (Phrase.optional p).Takes u (some a) := by
  intro hadv hfit c v hrest hends
  rw [Phrase.result_optional, part hadv hfit c v hrest hends.2]

theorem nil : (Phrase.many p).Takes [] [] := by
  intro hadv hfit c v hrest hends
  obtain ⟨hap, hconsumes⟩ := Phrase.consumes_repeated hadv
  obtain rfl : c.rest = v := hrest
  show result (Parser.many (p.parser readers)) c = _
  rw [result_many hconsumes, Phrase.result_of_blocks hap hfit hends.1]
  rfl

theorem cons (head : p.Takes u a) (tail : (Phrase.many p).Takes u' as)
    (htail : Derives (Phrase.many p) u' as) : (Phrase.many p).Takes (u ++ u') (a :: as) := by
  intro hadv hfit c v hrest hends
  obtain ⟨hap, hconsumes⟩ := Phrase.consumes_repeated hadv
  rw [List.append_assoc] at hrest
  have hnext : result (Parser.many (p.parser readers)) (c.past u (u' ++ v)) = _ :=
    tail hadv hfit (c.past u (u' ++ v)) v rfl hends
  show result (Parser.many (p.parser readers)) c = _
  rw [result_many hconsumes, head hap hfit c (u' ++ v) hrest (hends.2 u' as htail)]
  dsimp only
  rw [hnext, Cursor.past_past]
  rfl

theorem noItems : (Phrase.items p).Takes [] [] := by
  intro hadv hfit c v hrest hends
  obtain ⟨hap, hconsumes⟩ := Phrase.consumes_repeated hadv
  obtain rfl : c.rest = v := hrest
  show result (Parser.itemsUpTo (p.parser readers) c.rest) c = _
  rw [result_items hconsumes, Phrase.result_of_blocks hap hfit hends.2.1]
  rfl

theorem lastItem (part : p.Takes u a) : (Phrase.items p).Takes u [a] := by
  intro hadv hfit c v hrest hends
  obtain ⟨hap, hconsumes⟩ := Phrase.consumes_repeated hadv
  show result (Parser.itemsUpTo (p.parser readers) c.rest) c = _
  rw [result_items hconsumes, part hap hfit c v hrest hends.2.2.1]
  dsimp only
  rw [result_symbol_of_clear (c := c.past u v) hends.1]

theorem item {t : Located} (head : p.Takes u a) (comma : t.token = .symbol .comma)
    (tail : (Phrase.items p).Takes u' as) : (Phrase.items p).Takes (u ++ t :: u') (a :: as) := by
  intro hadv hfit c v hrest hends
  obtain ⟨hap, hconsumes⟩ := Phrase.consumes_repeated hadv
  rw [List.append_assoc] at hrest
  have hnext : result (Parser.itemsUpTo (p.parser readers)
      ((c.past u (t :: (u' ++ v))).past [t] (u' ++ v)).rest)
      ((c.past u (t :: (u' ++ v))).past [t] (u' ++ v)) = _ :=
    tail hadv hfit ((c.past u (t :: (u' ++ v))).past [t] (u' ++ v)) v rfl hends
  show result (Parser.itemsUpTo (p.parser readers) c.rest) c = _
  rw [result_items hconsumes, head hap hfit c (t :: (u' ++ v)) hrest (hends.2.2.2 t _ comma)]
  dsimp only
  rw [result_symbol_cons (c := c.past u (t :: (u' ++ v))) rfl comma]
  dsimp only
  rw [hnext]
  dsimp only [Option.map_some]
  rw [Cursor.past_past, Cursor.past_past]
  rfl

theorem spanned {t : Located} (part : p.Takes (t :: u) a) :
    (Phrase.spanned p).Takes (t :: u) (a, cover t u) := by
  intro hadv hfit c v hrest hends
  rw [Phrase.parser, result_spanned, part (Bool.and_eq_true_iff.mp hadv).2 hfit c v hrest hends,
    ← Cursor.span_past hrest]
  rfl

theorem rule {n : Nonterminal α} (part : n.body.Takes u a) : (Phrase.rule n).Takes u a := by
  intro _ _ c v hrest hends
  show result (readers.at n) c = _
  rw [readers_at]
  exact part n.body_advancing n.body_labelsFit c v hrest (n.body_ends hends)

end Phrase.Takes

/-- By induction on the derivation: the parser takes every step of it. -/
theorem Derives.reads {u : List Located} {a : α} (h : Derives p u a) : p.Takes u a := by
  induction h with
  | fixed h => exact fun _ _ c v hrest _ => result_token_cons hrest (if_pos h)
  | name h => exact fun _ _ c v hrest _ => result_token_cons hrest (by rw [h])
  | value h => exact fun _ _ c v hrest _ => result_token_cons hrest (denotes_iff.mp h)
  | map _ ih => exact ih.map
  | seq _ right ihl ihr => exact ihl.seq ihr right
  | left _ ih => exact ih.left
  | right part ih => exact ih.right part
  | absent => exact .absent
  | present _ ih => exact ih.present
  | nil => exact .nil
  | cons _ tail ih iht => exact ih.cons iht tail
  | noItems => exact .noItems
  | lastItem _ ih => exact ih.lastItem
  | item _ comma _ ih iht => exact ih.item comma iht
  | spanned _ ih => exact ih.spanned
  | labelled _ ih => exact fun hadv hfit c v hrest hends => ih hadv hfit.2 c v hrest hends
  | rule _ ih => exact ih.rule

/-- A sentence has one tree. -/
theorem Derives.unique {u : List Located} {a b : α} (hadv : p.advancing = true) (hfit : p.LabelsFit)
    (hends : p.Ends []) (ha : Derives p u a) (hb : Derives p u b) : a = b := by
  have hreads := (ha.reads hadv hfit ⟨0, 0, u⟩ [] (List.append_nil u).symm hends).symm.trans
    (hb.reads hadv hfit ⟨0, 0, u⟩ [] (List.append_nil u).symm hends)
  exact (Prod.mk.inj (Option.some.inj hreads)).1

/-! ### Sources -/

namespace Grammar

theorem file_labelsFit : file.LabelsFit := trivial

/-- At the end of the input, a source ends. -/
theorem file_ends : file.Ends [] := by
  refine file.ends_of_clear rfl ?_ (.nil _)
  decide

end Grammar

end ReportTemplate.Syntax
