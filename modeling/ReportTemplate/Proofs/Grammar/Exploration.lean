import ReportTemplate.Proofs.Grammar.Recursion
import ReportTemplate.Proofs.Grammar.Viable

/-!
# ReportTemplate.Proofs.Grammar.Exploration — what a run of a phrase's parser finds

A run that succeeds has read a sentence.  A failed test, in a run that succeeds or not, lies behind tokens
that a sentence can begin with, and what was wanted there may stand there.
-/

namespace ReportTemplate.Syntax

open ReportTemplate.Syntax.Parser

variable {α β : Type}

/-! ### What is expected -/

/-- What a message can say was expected. -/
inductive Wanted where
  | mark (m : Mark)
  | label (l : Label)

/-- The construct that a label names. -/
def Label.Names : Label → List Located → Prop
  | expression, u => ∃ e, Derives Grammar.operand u e
  | type, u => ∃ t, Derives Grammar.typeBody u t
  | statement, u => ∃ s, Derives Grammar.stmt u s

namespace Wanted

def text : Wanted → String
  | mark m => m.token.describe
  | label l => l.text

/-- The tokens are what is wanted. -/
def Meets : Wanted → List Located → Prop
  | mark m, u => ∃ t, u = [t] ∧ t.token = m.token
  | label l, u => l.Names u

end Wanted

/-- Every label is put on a phrase of the construct that it names. -/
def Phrase.LabelsFit : {α : Type} → Phrase α → Prop
  | _, .fixed _ | _, .name | _, .value | _, .rule _ => True
  | _, .seq p q | _, .either p q => p.LabelsFit ∧ q.LabelsFit
  | _, .map _ p | _, .optional p | _, .many p | _, .items p | _, .spanned p => p.LabelsFit
  | _, .labelled l p => (∀ u, l.Names u → ∃ a, Derives p u a) ∧ p.LabelsFit

/-- A failed test lies behind a beginning of a sentence, and so does all that was wanted. -/
def Phrase.Explains (p : Phrase α) (c : Cursor) (e : Option Failure) : Prop :=
  ∀ f ∈ e, ∃ x s, c.rest = x ++ s ∧ f.index = c.index + x.length ∧ p.Viable x ∧
    ∀ w ∈ f.wanted, ∃ wanted : Wanted, w = wanted.text ∧ ∀ y, wanted.Meets y → p.Viable (x ++ y)

/-- The cursor behind the tokens `u`, where the tokens `v` are left. -/
def Cursor.past (c : Cursor) (u v : List Located) : Cursor :=
  ⟨c.index + u.length, (u.getLast?.map fun t => t.span.stop).getD c.last, v⟩

theorem Cursor.past_past (c : Cursor) (u v w w' : List Located) :
    (c.past u w').past v w = c.past (u ++ v) w := by
  unfold Cursor.past
  rw [List.length_append, Nat.add_assoc, List.getLast?_append]
  cases v.getLast? <;> rfl

theorem Cursor.past_of_exactly {c c' : Cursor} {found : Token} {a : Unit}
    (h : result (exactly found) c = some (a, c')) :
    ∃ t v, c.rest = t :: v ∧ t.token = found ∧ c' = c.past [t] v := by
  obtain ⟨t, v, hrest, ht, rfl⟩ := result_token_some h
  refine ⟨t, v, hrest, ?_, rfl⟩
  split at ht
  · assumption
  · cases ht

/-- The span that a parser puts on what it read goes from the first token to the last. -/
theorem Cursor.span_past {c : Cursor} {t : Located} {u v : List Located} (h : c.rest = t :: u ++ v) :
    (⟨c.start, (c.past (t :: u) v).last⟩ : Span) = cover t u := by
  unfold Cursor.start Cursor.past cover
  rw [h, List.getLast?_cons]
  rfl

namespace Phrase.Explains

variable {p : Phrase α} {q : Phrase β} {c c' : Cursor} {e e' : Option Failure} {u v : List Located}

theorem none (p : Phrase α) (c : Cursor) : p.Explains c none := nofun

theorem merge (h : p.Explains c e) (h' : p.Explains c e') : p.Explains c (Failure.merge e e') := by
  rcases e with _ | ⟨i, as⟩
  · exact h'
  rcases e' with _ | ⟨j, bs⟩
  · exact h
  rcases Nat.lt_trichotomy i j with hij | rfl | hij
  · rwa [Failure.merge_of_lt hij]
  · rw [Failure.merge_of_eq]
    intro f hf
    obtain rfl := Option.some.inj hf
    obtain ⟨x, s, hrest, hindex, hviable, hwanted⟩ := h _ rfl
    obtain ⟨x', s', hrest', hindex', -, hwanted'⟩ := h' _ rfl
    obtain ⟨rfl, -⟩ : x = x' ∧ s = s' :=
      List.append_inj (hrest.symm.trans hrest') (Nat.add_left_cancel (hindex.symm.trans hindex'))
    refine ⟨x, s, hrest, hindex, hviable, fun w hw => ?_⟩
    rcases List.mem_append.mp hw with hw | hw
    · exact hwanted w hw
    · exact hwanted' w (List.mem_filter.mp hw).1
  · rwa [Failure.merge_of_gt hij]

/-- From a part to the phrase, where a sentence of the part stands behind the tokens `u`. -/
theorem shift (hc : c.rest = u ++ v) (hqp : ∀ z, q.Viable z → p.Viable (u ++ z))
    (h : q.Explains (c.past u v) e) : p.Explains c e := by
  intro f hf
  obtain ⟨x, s, hrest, hindex, hviable, hwanted⟩ := h f hf
  have hv : v = x ++ s := hrest
  refine ⟨u ++ x, s, by rw [hc, hv, List.append_assoc], ?_, hqp x hviable, fun w hw => ?_⟩
  · rw [hindex, List.length_append]
    exact Nat.add_assoc _ _ _
  · obtain ⟨wanted, rfl, hmeets⟩ := hwanted w hw
    exact ⟨wanted, rfl, fun y hy => (List.append_assoc u x y).symm ▸ hqp _ (hmeets y hy)⟩

theorem mono (hqp : ∀ z, q.Viable z → p.Viable z) (h : q.Explains c e) : p.Explains c e :=
  shift (u := []) rfl hqp h

/-- A test that fails at once. -/
theorem here {wanted : List String} (hadv : p.advancing = true)
    (h : ∀ w ∈ wanted, ∃ wanted : Wanted, w = wanted.text ∧ ∀ y, wanted.Meets y → p.Viable y) :
    p.Explains c (some ⟨c.index, wanted⟩) := by
  intro f hf
  obtain rfl := Option.some.inj hf
  exact ⟨[], c.rest, rfl, rfl, .nil p hadv, h⟩

theorem relabel {l : Label} (hadv : p.advancing = true) (hl : ∀ u, l.Names u → ∃ a, Derives p u a)
    (h : p.Explains c e) : p.Explains c (Failure.relabel c.index l.text e) := by
  rcases e with _ | f
  · exact none p c
  unfold Failure.relabel
  dsimp only
  split
  · refine here hadv fun w hw => ⟨.label l, List.mem_singleton.mp hw, fun y hy => ?_⟩
    obtain ⟨a, ha⟩ := hl y hy
    exact .of_derives ha
  · exact h

end Phrase.Explains

/-! ### Runs -/

/-- What the parser of a phrase gives from a cursor: the tree of a sentence that it read or a failed test,
and failed tests lie where a sentence could go on. -/
structure Phrase.Found (p : Phrase α) (c : Cursor) (run : Option (α × Cursor) × Option Failure) :
    Prop where
  sentence : ∀ a c', run.1 = some (a, c') → ∃ u v, c.rest = u ++ v ∧ c' = c.past u v ∧ Derives p u a
  failure : run.1 = none → run.2.isSome = true
  explained : p.Explains c run.2

theorem Failure.isSome_merge_right {e e' : Option Failure} (h : e'.isSome = true) :
    (Failure.merge e e').isSome = true := by
  obtain ⟨f, rfl⟩ := Option.isSome_iff_exists.mp h
  obtain ⟨g, hg⟩ := Failure.merge_some e f
  exact hg ▸ rfl

theorem Failure.isSome_relabel {start : Nat} {label : String} {e : Option Failure}
    (h : e.isSome = true) : (Failure.relabel start label e).isSome = true := by
  obtain ⟨f, rfl⟩ := Option.isSome_iff_exists.mp h
  unfold Failure.relabel
  dsimp only
  split <;> rfl

namespace Phrase.Found

variable {p : Phrase α} {c c' : Cursor} {e : Option Failure} {a : α}

theorem failed (h : p.Explains c e) (he : e.isSome = true) : p.Found c (none, e) :=
  ⟨fun _ _ hr => (nomatch hr), fun _ => he, h⟩

theorem read {u v : List Located} (hc : c.rest = u ++ v) (ha : Derives p u a) (h : p.Explains c e) :
    p.Found c (some (a, c.past u v), e) where
  sentence b c' hr := by
    obtain ⟨rfl, rfl⟩ := Prod.mk.inj (Option.some.inj hr)
    exact ⟨u, v, hc, rfl, ha⟩
  failure := nofun
  explained := h

theorem token {wanted : List String} {f : Token → Option α} (hadv : p.advancing = true)
    (hf : ∀ t a, f t.token = some a → Derives p [t] a)
    (hwanted : ∀ w ∈ wanted, ∃ wanted : Wanted, w = wanted.text ∧ ∀ y, wanted.Meets y → p.Viable y) :
    p.Found c (Parser.token wanted f c) := by
  unfold Parser.token
  cases hrest : c.rest with
  | nil => exact failed (.here hadv hwanted) rfl
  | cons t rest =>
    dsimp only
    cases ha : f t.token with
    | none => exact failed (.here hadv hwanted) rfl
    | some a => exact read (u := [t]) hrest (hf t a ha) (.none p c)

end Phrase.Found

/-- The runs of the parser of a phrase where less than some number of tokens is left. -/
def Phrase.Explores (n : Nat) {α : Type} (p : Phrase α) : Prop :=
  p.advancing = true → p.LabelsFit → ∀ c : Cursor, c.rest.length < n → p.Found c (p.parser readers c)

namespace Phrase.Explores

variable {n : Nat} {p : Phrase α} {q : Phrase β}

theorem map (f : α → β) (hp : p.Explores n) : (Phrase.map f p).Explores n := by
  intro hadv hfit c hc
  have hfound := hp hadv hfit c hc
  show (Phrase.map f p).Found c ((p.parser readers >>= fun a => pure (f a)) c)
  rw [map_run]
  refine ⟨fun b c' hr => ?_, fun hr => hfound.failure (Option.map_eq_none_iff.mp hr),
    hfound.explained.mono fun z hz => hz.map⟩
  obtain ⟨⟨a, c₁⟩, ha, heq⟩ := Option.map_eq_some_iff.mp hr
  obtain ⟨rfl, rfl⟩ := Prod.mk.inj heq
  obtain ⟨u, v, hrest, rfl, hu⟩ := hfound.sentence a c₁ ha
  exact ⟨u, v, hrest, rfl, hu.map⟩

theorem seq {k : Nat} (hn : n ≤ k ∨ p.nullable = false ∧ n ≤ k + 1) (hp : p.Explores n)
    (hq : q.Explores k) : (Phrase.seq p q).Explores n := by
  intro hadv hfit c hc
  obtain ⟨hap, haq⟩ := Bool.and_eq_true_iff.mp hadv
  have hfound := hp hap hfit.1 c hc
  show (Phrase.seq p q).Found c ((p.parser readers >>= fun a => q.parser readers >>= fun b => pure (a, b)) c)
  rcases seq_cases (p.parser readers) (q.parser readers) c with ⟨e, hrun, heq⟩ |
      ⟨a, c', e, e', hrun, hrun', heq⟩ | ⟨a, c', e, b, c'', e', hrun, hrun', heq⟩
  · rw [heq]
    rw [hrun] at hfound
    exact .failed (hfound.explained.mono fun z hz => hz.seqLeft haq) (hfound.failure rfl)
  all_goals
    rw [hrun] at hfound
    obtain ⟨u, v, hrest, rfl, hu⟩ := hfound.sentence a c' rfl
    have hless := p.parser_consumes readers_consuming hap c a _ (congrArg Prod.fst hrun)
    have hk : (c.past u v).rest.length < k := by
      rcases hn with hn | ⟨hnull, hn⟩
      · omega
      · rw [Phrase.least_of_nullable hnull] at hless
        omega
    have hfound' := hq haq hfit.2 _ hk
    rw [hrun'] at hfound'
    have hexplained : (Phrase.seq p q).Explains c (Failure.merge e e') :=
      (hfound.explained.mono fun z hz => hz.seqLeft haq).merge
        (hfound'.explained.shift hrest fun z hz => hz.seqRight hu)
    rw [heq]
  · exact .failed hexplained (Failure.isSome_merge_right (hfound'.failure rfl))
  · obtain ⟨u', v', hrest', rfl, hu'⟩ := hfound'.sentence b c'' rfl
    have hv : v = u' ++ v' := hrest'
    rw [Cursor.past_past]
    exact .read (by rw [hrest, hv, List.append_assoc]) (hu.seq hu') hexplained

theorem either {q : Phrase α} (hp : p.Explores n) (hq : q.Explores n) :
    (Phrase.either p q).Explores n := by
  intro hadv hfit c hc
  obtain ⟨hap, haq⟩ := Bool.and_eq_true_iff.mp hadv
  have hfound := hp hap hfit.1 c hc
  have hfound' := hq haq hfit.2 c hc
  show (Phrase.either p q).Found c (Parser.either (p.parser readers) (q.parser readers) c)
  rcases either_cases (p.parser readers) (q.parser readers) c with ⟨⟨a, c'⟩, e, hrun, heq⟩ |
      ⟨e, hrun, heq⟩
  · rw [heq]
    rw [hrun] at hfound
    obtain ⟨u, v, hrest, rfl, hu⟩ := hfound.sentence a c' rfl
    exact .read hrest hu.left (hfound.explained.mono fun z hz => hz.left)
  · rw [heq]
    rw [hrun] at hfound
    refine ⟨fun a c' hr => ?_, fun hr => Failure.isSome_merge_right (hfound'.failure hr),
      (hfound.explained.mono fun z hz => hz.left).merge
        (hfound'.explained.mono fun z hz => hz.right)⟩
    obtain ⟨u, v, hrest, rfl, hu⟩ := hfound'.sentence a c' hr
    exact ⟨u, v, hrest, rfl, hu.right⟩

theorem optional (hp : p.Explores n) : (Phrase.optional p).Explores n := by
  intro hadv hfit c hc
  have hfound := hp hadv hfit c hc
  show (Phrase.optional p).Found c (Parser.optional (p.parser readers) c)
  rcases optional_cases (p.parser readers) c with ⟨a, c', e, hrun, heq⟩ | ⟨e, hrun, heq⟩
  · rw [heq]
    rw [hrun] at hfound
    obtain ⟨u, v, hrest, rfl, hu⟩ := hfound.sentence a c' rfl
    exact .read hrest hu.present (hfound.explained.mono fun z hz => hz.optional)
  · rw [heq]
    rw [hrun] at hfound
    exact .read (u := []) rfl .absent (hfound.explained.mono fun z hz => hz.optional)

/-- By induction on the tokens that are left: each round reads one. -/
theorem many (hnull : p.nullable = false) (hp : p.Explores n) : (Phrase.many p).Explores n := by
  intro hadv hfit c
  have hap := (Bool.and_eq_true_iff.mp hadv).2
  have hconsumes := Phrase.parser_advances readers_consuming hap hnull
  induction hk : c.rest.length using Nat.strongRecOn generalizing c with
  | ind k ih =>
    intro hc
    have hfound := hp hap hfit c (hk ▸ hc)
    show (Phrase.many p).Found c (Parser.many (p.parser readers) c)
    rcases many_cases hconsumes c with ⟨e, hrun, heq⟩ | ⟨a, c', e, as, c'', e', hrun, hrun', heq⟩
    · rw [heq]
      rw [hrun] at hfound
      exact .read (u := []) rfl .nil (hfound.explained.mono fun z hz => hz.manyHead)
    rw [hrun] at hfound
    obtain ⟨u, v, hrest, rfl, hu⟩ := hfound.sentence a c' rfl
    have hless : (c.past u v).rest.length < k := hk ▸ hconsumes c a _ (congrArg Prod.fst hrun)
    have hfound' := ih _ hless _ rfl (Nat.lt_trans hless hc)
    replace hfound' : (Phrase.many p).Found _ (Parser.many (p.parser readers) (c.past u v)) := hfound'
    rw [hrun'] at hfound'
    obtain ⟨u', v', hrest', rfl, hu'⟩ := hfound'.sentence as c'' rfl
    have hv : v = u' ++ v' := hrest'
    rw [heq, Cursor.past_past]
    exact .read (by rw [hrest, hv, List.append_assoc]) (hu.cons hu')
      ((hfound.explained.mono fun z hz => hz.manyHead).merge
        (hfound'.explained.shift hrest fun z hz => hz.manyTail hu))

/-- The test for a comma behind an item: tokens that the items can go on with. -/
theorem comma (hadv : p.advancing = true) (hnull : p.nullable = false) {c : Cursor} {u v : List Located}
    {a : α} (hrest : c.rest = u ++ v) (hu : Derives p u a) :
    (Phrase.items p).Explains c (Parser.symbol .comma (c.past u v)).2 := by
  have hitems : ∀ t : Located, t.token = .symbol .comma → (Phrase.items p).Viable (u ++ [t]) := by
    intro t ht
    exact .itemsTail hu ht (.nil (.items p) (Bool.and_eq_true_iff.mpr ⟨hnull ▸ rfl, hadv⟩))
  have hfailed : (Phrase.items p).Explains c
      (some ⟨(c.past u v).index, [(Mark.symbol .comma).token.describe]⟩) := by
    intro f hf
    obtain rfl := Option.some.inj hf
    refine ⟨u, v, hrest, rfl, .itemsHead (.of_derives hu), fun w hw => ?_⟩
    refine ⟨.mark (.symbol .comma), List.mem_singleton.mp hw, ?_⟩
    rintro y ⟨t, rfl, ht⟩
    exact hitems t ht
  unfold Parser.symbol exactly Parser.token
  cases (c.past u v).rest with
  | nil => exact hfailed
  | cons t rest =>
    dsimp only
    split
    · exact .none _ c
    · exact hfailed

theorem items (hnull : p.nullable = false) (hp : p.Explores n) : (Phrase.items p).Explores n := by
  intro hadv hfit c
  have hap := (Bool.and_eq_true_iff.mp hadv).2
  have hconsumes := Phrase.parser_advances readers_consuming hap hnull
  induction hk : c.rest.length using Nat.strongRecOn generalizing c with
  | ind k ih =>
    intro hc
    have hfound := hp hap hfit c (hk ▸ hc)
    show (Phrase.items p).Found c (Parser.itemsUpTo (p.parser readers) c.rest c)
    rcases items_cases hconsumes c with ⟨e, hrun, heq⟩ | ⟨a, c', e, e', hrun, hcomma, heq⟩ |
        ⟨a, c', e, c'', e', as, c₃, e'', hrun, hcomma, hrun', heq⟩
    · rw [heq]
      rw [hrun] at hfound
      exact .read (u := []) rfl .noItems (hfound.explained.mono fun z hz => hz.itemsHead)
    all_goals
      rw [hrun] at hfound
      obtain ⟨u, v, hrest, rfl, hu⟩ := hfound.sentence a c' rfl
      have hexplained := (hfound.explained.mono fun z hz => Phrase.Viable.itemsHead hz).merge
        (comma hap hnull hrest hu)
      rw [hcomma] at hexplained
      rw [heq]
    · exact .read hrest hu.lastItem hexplained
    · obtain ⟨t, w, hv, ht, rfl⟩ := Cursor.past_of_exactly (congrArg Prod.fst hcomma)
      replace hv : v = [t] ++ w := hv
      rw [Cursor.past_past] at hrun' hcomma
      have hrest' : c.rest = (u ++ [t]) ++ w := by rw [hrest, hv, List.append_assoc]
      have hless : (c.past (u ++ [t]) w).rest.length < k := by
        show w.length < k
        rw [← hk, hrest', List.length_append, List.length_append, List.length_singleton]
        omega
      have hfound' := ih _ hless _ rfl (Nat.lt_trans hless hc)
      replace hfound' : (Phrase.items p).Found _
        (Parser.itemsUpTo (p.parser readers) (c.past (u ++ [t]) w).rest (c.past (u ++ [t]) w)) := hfound'
      rw [hrun'] at hfound'
      obtain ⟨u', v', hw, rfl, hu'⟩ := hfound'.sentence as c₃ rfl
      replace hw : w = u' ++ v' := hw
      rw [Cursor.past_past]
      refine .read (u := u ++ [t] ++ u') (by rw [hrest', hw, List.append_assoc (u ++ [t])]) ?_
        (hexplained.merge (hfound'.explained.shift hrest' fun z hz => ?_))
      · rw [List.append_assoc]
        exact hu.item ht hu'
      · rw [List.append_assoc]
        exact hz.itemsTail hu ht

theorem spanned (hnull : p.nullable = false) (hp : p.Explores n) : (Phrase.spanned p).Explores n := by
  intro hadv hfit c hc
  have hap := (Bool.and_eq_true_iff.mp hadv).2
  have hfound := hp hap hfit c hc
  refine ⟨fun x c' hr => ?_, fun hr => hfound.failure (Option.map_eq_none_iff.mp hr),
    hfound.explained.mono fun z hz => hz.spanned hap hnull⟩
  obtain ⟨a, span⟩ := x
  obtain ⟨ha, rfl⟩ := result_spanned_some hr
  obtain ⟨u, v, hrest, rfl, hu⟩ := hfound.sentence a c' ha
  cases u with
  | nil => exact absurd rfl ((hu.begins hap).ne_nil hnull)
  | cons t u =>
    rw [Cursor.span_past hrest]
    exact ⟨t :: u, v, hrest, rfl, hu.spanned⟩

theorem labelled (l : Label) (hp : p.Explores n) : (Phrase.labelled l p).Explores n := by
  intro hadv hfit c hc
  replace hadv : p.advancing = true := hadv
  have hfound := hp hadv hfit.2 c hc
  refine ⟨fun a c' hr => ?_, fun hr => Failure.isSome_relabel (hfound.failure hr),
    (hfound.explained.relabel hadv hfit.1).mono fun z hz => hz.labelled⟩
  obtain ⟨u, v, hrest, rfl, hu⟩ := hfound.sentence a c' hr
  exact ⟨u, v, hrest, rfl, hu.labelled⟩

end Phrase.Explores

theorem compositional_explores : Compositional Phrase.Explores where
  mono hnk h hadv hfit c hc := h hadv hfit c (Nat.lt_of_lt_of_le hc hnk)
  fixed n m hadv _ c _ := by
    show Phrase.Found _ c (exactly m.token c)
    refine Phrase.Found.token hadv (fun t a ht => ?_) fun w hw => ?_
    · split at ht
      · next h => exact .fixed h
      · cases ht
    · refine ⟨.mark m, List.mem_singleton.mp hw, ?_⟩
      rintro y ⟨t, rfl, ht⟩
      exact .of_derives (.fixed ht)
  name n hadv _ c _ := by
    show Phrase.Found _ c (Parser.token [] _ c)
    refine Phrase.Found.token hadv (fun t a ht => ?_) fun w hw => nomatch hw
    split at ht
    · next h =>
      obtain rfl := Option.some.inj ht
      exact .name h
    · cases ht
  value n hadv _ c _ := by
    show Phrase.Found _ c (Parser.token [] _ c)
    exact Phrase.Found.token hadv (fun t a ht => .value (denotes_iff.mpr ht)) fun w hw => nomatch hw
  map f _ h := h.map f
  seq _ hn hp hq := hp.seq hn hq
  either hp hq := hp.either hq
  optional h := h.optional
  many _ hnull h := h.many hnull
  items _ hnull h := h.items hnull
  spanned _ hnull h := h.spanned hnull
  labelled l _ h := h.labelled l

/-! ### Labels of the grammar -/

namespace Grammar

theorem labelsFit_leftChain {p : Phrase Expr} (hp : p.LabelsFit) :
    ∀ ops : List (Symbol × BinaryOp), (leftChain ops p).LabelsFit
  | [] => hp
  | o :: ops => by
    have hoperator : ∀ (o : Symbol × BinaryOp) (ops : List (Symbol × BinaryOp)),
        (operator o ops).LabelsFit := by
      intro o ops
      induction ops generalizing o with
      | nil => trivial
      | cons o' ops ih => exact ⟨trivial, ih o'⟩
    exact ⟨hp, hoperator o ops, hp⟩

theorem labelsFit_unary : unary.LabelsFit := by
  simp only [unary, unaryOp, suffixed, operand, literal, call, ident, args, variableName, list,
    methodSuffix, indexSuffix, expr, Phrase.symbol, Phrase.before, Phrase.after, Phrase.between,
    Phrase.LabelsFit, and_true, true_and]
  exact fun u hu => hu

theorem labelsFit_operation : operation.LabelsFit := by
  have hlevels : ∀ (levels : List (List (Symbol × BinaryOp))) (p : Phrase Expr), p.LabelsFit →
      (levels.foldl (fun p ops => leftChain ops p) p).LabelsFit := by
    intro levels
    induction levels with
    | nil => exact fun _ hp => hp
    | cons ops levels ih => exact fun p hp => ih _ (labelsFit_leftChain hp ops)
  exact hlevels levels unary labelsFit_unary

theorem labelsFit_blockBody : blockBody.LabelsFit := by
  refine ⟨trivial, ⟨fun u hu => hu, ?_⟩, trivial⟩
  simp only [stmt, declaration, ifStmt, whileStmt, forStmt, returnStmt, assignment, exprStmt, guard,
    elseIf, otherwise, ident, expr, block, Phrase.symbol, Phrase.keyword, Phrase.before, Phrase.after,
    Phrase.LabelsFit, and_true]

theorem labelsFit_classBody : classBody.LabelsFit := by
  simp only [classBody, method, param, ident, type, block, Phrase.symbol, Phrase.keyword,
    Phrase.before, Phrase.after, Phrase.between, Phrase.LabelsFit, and_true]

end Grammar

theorem Nonterminal.body_labelsFit (n : Nonterminal α) : n.body.LabelsFit := by
  cases n with
  | expr => exact Grammar.labelsFit_operation
  | type =>
    refine ⟨fun u hu => hu, ?_⟩
    simp only [Grammar.typeBody, Grammar.callbackType, Grammar.namedType, Grammar.ident, Grammar.type,
      Phrase.symbol, Phrase.keyword, Phrase.before, Phrase.after, Phrase.between, Phrase.LabelsFit,
      and_true]
  | block => exact Grammar.labelsFit_blockBody
  | classDecl => exact Grammar.labelsFit_classBody

/-- What every run of the parser of a phrase finds. -/
theorem Phrase.found (p : Phrase α) (hadv : p.advancing = true) (hfit : p.LabelsFit) (c : Cursor) :
    p.Found c (p.parser readers c) := by
  refine compositional_explores.all ?_ ?_ (c.rest.length + 1) p hadv hadv hfit c (Nat.lt_succ_self _)
  · exact fun m _ _ c hc => absurd hc (Nat.not_lt_zero _)
  · intro n β m hbody _ _ c hc
    have hfound := hbody m.body_advancing m.body_labelsFit c hc
    show (Phrase.rule m).Found c (readers.at m c)
    rw [readers_at]
    refine ⟨fun a c' hr => ?_, hfound.failure, hfound.explained.mono fun z hz => hz.rule⟩
    obtain ⟨u, v, hrest, rfl, hu⟩ := hfound.sentence a c' hr
    exact ⟨u, v, hrest, rfl, hu.rule⟩

end ReportTemplate.Syntax
