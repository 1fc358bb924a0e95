import ReportTemplate.Proofs.Grammar.Members
import ReportTemplate.Proofs.Grammar.Nesting
import ReportTemplate.Proofs.Grammar.Viable

/-!
# ReportTemplate.Proofs.Grammar.Heads — the first tokens of expressions

Each expression of a source is read from a run of its tokens.  Parentheses leave no node, so the span of
an expression begins behind those with which its tokens begin.  The operands of an expression are read
from tokens among its own, where each level of operators is read as an expression again.
-/

namespace ReportTemplate.Syntax

open Phrase

variable {α : Type}

/-! ### Opening parentheses -/

/-- The first of the tokens that is no opening parenthesis. -/
def Heads (t : Located) (u : List Located) : Prop :=
  ∃ opens v, u = opens ++ t :: v ∧ (∀ o ∈ opens, o.token = .symbol .parenOpen) ∧
    t.token ≠ .symbol .parenOpen

section

variable {t o : Located} {u : List Located}

theorem heads_cons (h : t.token ≠ .symbol .parenOpen) (v : List Located) : Heads t (t :: v) :=
  ⟨[], v, rfl, nofun, h⟩

theorem Heads.append (h : Heads t u) (w : List Located) : Heads t (u ++ w) := by
  obtain ⟨opens, v, rfl, hopens, ht⟩ := h
  exact ⟨opens, v ++ w, by simp, hopens, ht⟩

theorem Heads.behind (h : Heads t u) (ho : o.token = .symbol .parenOpen) : Heads t (o :: u) := by
  obtain ⟨opens, v, rfl, hopens, ht⟩ := h
  exact ⟨o :: opens, v, rfl, List.forall_mem_cons.mpr ⟨ho, hopens⟩, ht⟩

theorem Heads.mem (h : Heads t u) : t ∈ u := by
  obtain ⟨opens, v, rfl, -, -⟩ := h
  simp

theorem Heads.unique {t' : Located} (h : Heads t u) (h' : Heads t' u) : t = t' := by
  obtain ⟨opens, v, rfl, hopens, ht⟩ := h
  obtain ⟨opens', v', hu, hopens', ht'⟩ := h'
  induction opens generalizing opens' with
  | nil =>
    cases opens' with
    | nil => exact (List.cons.inj hu).1
    | cons o opens' =>
      obtain ⟨rfl, -⟩ := List.cons.inj hu
      exact absurd (hopens' t List.mem_cons_self) ht
  | cons o opens ih =>
    cases opens' with
    | nil =>
      obtain ⟨rfl, -⟩ := List.cons.inj hu
      exact absurd (hopens o List.mem_cons_self) ht'
    | cons o' opens' =>
      obtain ⟨-, htail⟩ := List.cons.inj hu
      exact ih (List.forall_mem_cons.mp hopens).2 opens' htail (List.forall_mem_cons.mp hopens').2

end

/-! ### Sentences of phrases in sequence -/

theorem Derives.items_mem {p : Phrase α} {u : List Located} {as : List α}
    (h : Derives (.items p) u as) : ∀ a ∈ as, Among p u a := by
  induction as generalizing u with
  | nil => exact nofun
  | cons a as ih =>
    rcases h.forms with ⟨rfl, hlast⟩ | ⟨v, t, w, rfl, -, hhead, htail⟩
    · exact List.forall_mem_singleton.mpr ⟨u, List.infix_rfl, hlast⟩
    · refine List.forall_mem_cons.mpr ⟨⟨v, (List.prefix_append v _).isInfix, hhead⟩, fun b hb => ?_⟩
      exact (ih htail b hb).mono ⟨v ++ [t], [], by simp⟩

theorem Derives.many_mem {p : Phrase α} {u : List Located} {as : List α}
    (h : Derives (.many p) u as) : ∀ a ∈ as, Among p u a := by
  induction as generalizing u with
  | nil => exact nofun
  | cons a as ih =>
    obtain ⟨v, w, rfl, hhead, htail⟩ := h.forms
    refine List.forall_mem_cons.mpr ⟨⟨v, (List.prefix_append v w).isInfix, hhead⟩, fun b hb => ?_⟩
    exact (ih htail b hb).mono (List.suffix_append v w).isInfix

/-- The last sentence of a repetition. -/
theorem Derives.many_concat {p : Phrase α} {u : List Located} {as : List α} {a : α}
    (h : Derives (.many p) u (as ++ [a])) :
    ∃ v w, u = v ++ w ∧ Derives (.many p) v as ∧ Derives p w a := by
  induction as generalizing u with
  | nil =>
    obtain ⟨v, w, rfl, hhead, htail⟩ := h.forms
    obtain rfl : w = [] := htail.forms
    exact ⟨[], v, by simp, .nil, hhead⟩
  | cons b as ih =>
    obtain ⟨v, w, rfl, hhead, htail⟩ := h.forms
    obtain ⟨v', w', rfl, hmany, hlast⟩ := ih htail
    exact ⟨v ++ v', w', by simp, .cons hhead hmany, hlast⟩

theorem Derives.optional_mem {p : Phrase α} {u : List Located} {o : Option α}
    (h : Derives (.optional p) u o) : ∀ a ∈ o, Among p u a := by
  rintro a rfl
  exact ⟨u, List.infix_rfl, h.forms⟩

namespace Grammar

/-! ### Expressions -/

/-- Where an expression that is read from some tokens begins, and that each of its operands is read from
tokens among them. -/
structure Read (u : List Located) (e : Expr) : Prop where
  head : ∃ t, Heads t u ∧ t.span.start = e.span.start
  operands : ∀ x, .expr x ∈ Element.ofExpr e → Among expr u x

/-- An expression that begins where another one does, with more tokens behind it. -/
theorem Read.extend {u : List Located} {e e' : Expr} (h : Read u e) (w : List Located)
    (hstart : e'.span.start = e.span.start)
    (hoperands : ∀ x, .expr x ∈ Element.ofExpr e' → Among expr (u ++ w) x) : Read (u ++ w) e' where
  head := by
    obtain ⟨t, ht, hspan⟩ := h.head
    exact ⟨t, ht.append w, hspan.trans hstart.symm⟩
  operands := hoperands

/-- An expression with a span of its own begins with the first of its tokens. -/
theorem read_spanned {p : Phrase α} {mk : α × Span → Expr} {u : List Located} {e : Expr}
    (h : Derives (.map mk (.spanned p)) u e) (hspan : ∀ a s, (mk (a, s)).span = s)
    (hfirst : ∀ t v a, Derives p (t :: v) a → t.token ≠ .symbol .parenOpen)
    (hoperands : ∀ a s, Derives p u a → ∀ x, .expr x ∈ Element.ofExpr (mk (a, s)) → Among expr u x) :
    Read u e := by
  obtain ⟨⟨a, s⟩, rfl, hspanned⟩ := h.forms
  obtain ⟨t, v, rfl, rfl, hpart⟩ := hspanned.forms
  exact ⟨⟨t, heads_cons (hfirst t v a hpart) v, by rw [hspan]; rfl⟩, hoperands a _ hpart⟩

/-- A sentence that begins with a terminal other than the opening parenthesis. -/
theorem first_ne {p : Phrase α} (hadv : p.advancing = true)
    (hfirst : ∀ x ∈ p.first, ¬ x.Accepts (.symbol .parenOpen)) :
    ∀ t v a, Derives p (t :: v) a → t.token ≠ .symbol .parenOpen := by
  intro t v a hder htoken
  obtain ⟨x, hx, haccepts⟩ := (hder.begins hadv).head t rfl
  rw [htoken] at haccepts
  exact hfirst x hx haccepts

theorem not_accepts_name : ¬ Terminal.name.Accepts (.symbol .parenOpen) := by
  rintro ⟨_, h⟩
  cases h

theorem not_accepts_value : ¬ Terminal.value.Accepts (.symbol .parenOpen) := by
  rintro ⟨_, h⟩
  cases h

theorem among_args {u : List Located} {as : List Expr} (h : Derives args u as) :
    ∀ a ∈ as, Among expr u a := by
  obtain ⟨v, hv, hitems⟩ := Derives.between h
  exact fun a ha => (hitems.items_mem a ha).mono hv

theorem read_operand {n : Nat} (hexpr : ∀ u e, u.length < n → Derives expr u e → Read u e)
    (u : List Located) (e : Expr) (hu : u.length < n + 1) (h : Derives operand u e) : Read u e := by
  rcases h.forms with hliteral | h
  · refine read_spanned hliteral (fun _ _ => rfl) (first_ne rfl ?_) fun _ _ _ _ hx => nomatch hx
    exact List.forall_mem_singleton.mpr not_accepts_value
  rcases h.forms with hcall | h
  · refine read_spanned hcall (fun _ _ => rfl) (first_ne rfl ?_) fun a s hpart x hx => ?_
    · exact List.forall_mem_singleton.mpr not_accepts_name
    · obtain ⟨v, w, rfl, -, hargs⟩ := hpart.forms
      rcases List.mem_cons.mp hx with hx | hx
      · cases hx
      · obtain ⟨y, hy, hxy⟩ := List.mem_map.mp hx
        obtain rfl := Element.expr.inj hxy
        exact (among_args hargs y hy).mono (List.suffix_append v w).isInfix
  rcases h.forms with hname | h
  · obtain ⟨i, rfl, hident⟩ := hname.forms
    obtain ⟨⟨text, span⟩, rfl, hspanned⟩ := hident.forms
    obtain ⟨t, v, rfl, rfl, hpart⟩ := hspanned.forms
    refine ⟨⟨t, heads_cons ?_ v, rfl⟩, nofun⟩
    have hfirst : ∀ x ∈ Phrase.first Phrase.name, ¬ x.Accepts (.symbol .parenOpen) :=
      List.forall_mem_singleton.mpr not_accepts_name
    exact first_ne rfl hfirst t v text hpart
  rcases h.forms with hlist | hparens
  · refine read_spanned hlist (fun _ _ => rfl) (first_ne rfl ?_) fun a s hpart x hx => ?_
    · exact List.forall_mem_singleton.mpr nofun
    · obtain ⟨v, hv, hitems⟩ := Derives.between hpart
      obtain ⟨y, hy, hxy⟩ := List.mem_map.mp hx
      obtain rfl := Element.expr.inj hxy
      exact (hitems.items_mem y hy).mono hv
  · obtain ⟨⟨_, _⟩, rfl, hseq⟩ := hparens.forms
    obtain ⟨v, w, rfl, hopen, hafter⟩ := hseq.forms
    obtain ⟨o, rfl, ho⟩ := hopen.forms
    obtain ⟨⟨e, _⟩, rfl, hseq⟩ := hafter.forms
    obtain ⟨w, c, rfl, hinner, -⟩ := hseq.forms
    rw [List.singleton_append, List.length_cons, List.length_append] at hu
    obtain ⟨⟨t, ht, hstart⟩, hoperands⟩ := hexpr w e (by omega) hinner
    refine ⟨⟨t, (ht.append c).behind ho, hstart⟩, fun x hx => ?_⟩
    exact (hoperands x hx).mono ⟨[o], c, by simp⟩

/-- In front of each suffix stands an expression. -/
theorem read_suffixes {xs : List (Suffix × Span)} {u v : List Located} {e : Expr}
    (hfirst : Derives (.labelled .expression operand) u e) (he : Read u e)
    (hmany : Derives (.many (.spanned (.either methodSuffix indexSuffix))) v xs) :
    Read (u ++ v) (xs.foldl withSuffix e) := by
  induction xs using List.reverseRecOn generalizing v with
  | nil =>
    obtain rfl : v = [] := hmany.forms
    rwa [List.append_nil]
  | append_singleton xs x ih =>
    obtain ⟨v, w, rfl, hfront, hlast⟩ := hmany.many_concat
    have hexpr : Derives expr (u ++ v) (xs.foldl withSuffix e) :=
      expr_of_suffixed (Derives.seq hfirst hfront).map
    obtain ⟨suffix, span⟩ := x
    obtain ⟨t, w, rfl, -, hsuffix⟩ := hlast.forms
    have hlater : t :: w <:+: u ++ v ++ t :: w := (List.suffix_append _ _).isInfix
    rw [List.foldl_append, List.foldl_cons, List.foldl_nil, ← List.append_assoc]
    rcases hsuffix.forms with hmethod | hindex
    · obtain ⟨⟨name, as⟩, rfl, hpart⟩ := hmethod.forms
      obtain ⟨w', hw', hseq⟩ := Derives.before hpart
      obtain ⟨w₁, w₂, rfl, -, hargs⟩ := hseq.forms
      have hargs' : w₂ <:+: u ++ v ++ t :: w :=
        (List.suffix_append w₁ w₂).isInfix.trans (hw'.trans hlater)
      refine (ih hfront).extend _ rfl fun x hx => ?_
      rcases List.mem_cons.mp hx with hx | hx
      · obtain rfl := Element.expr.inj hx
        exact ⟨_, (List.prefix_append _ _).isInfix, hexpr⟩
      rcases List.mem_cons.mp hx with hx | hx
      · cases hx
      · obtain ⟨y, hy, hxy⟩ := List.mem_map.mp hx
        obtain rfl := Element.expr.inj hxy
        exact (among_args hargs y hy).mono hargs'
    · obtain ⟨place, rfl, hpart⟩ := hindex.forms
      have hplace : Among expr (t :: w) place := Derives.between hpart
      refine (ih hfront).extend _ rfl fun x hx => ?_
      rcases List.mem_cons.mp hx with hx | hx
      · obtain rfl := Element.expr.inj hx
        exact ⟨_, (List.prefix_append _ _).isInfix, hexpr⟩
      · obtain rfl := Element.expr.inj (List.mem_singleton.mp hx)
        exact hplace.mono hlater

theorem read_suffixed {n : Nat} (hexpr : ∀ u e, u.length < n → Derives expr u e → Read u e)
    (u : List Located) (e : Expr) (hu : u.length < n + 1) (h : Derives suffixed u e) : Read u e := by
  obtain ⟨⟨e, xs⟩, rfl, hseq⟩ := h.forms
  obtain ⟨v, w, rfl, hfirst, hmany⟩ := hseq.forms
  rw [List.length_append] at hu
  exact read_suffixes hfirst (read_operand hexpr v e (by omega) hfirst.forms) hmany

theorem read_unary {n : Nat} (hexpr : ∀ u e, u.length < n → Derives expr u e → Read u e)
    (u : List Located) (e : Expr) (hu : u.length < n + 1) (h : Derives unary u e) : Read u e := by
  obtain ⟨⟨ops, e⟩, rfl, hseq⟩ := h.forms
  obtain ⟨v, w, rfl, hops, hoperand⟩ := hseq.forms
  cases ops with
  | nil =>
    obtain rfl : v = [] := hops.forms
    exact read_suffixed hexpr w e hu hoperand
  | cons op ops =>
    obtain ⟨v₁, v₂, rfl, hop, hrest⟩ := hops.forms
    obtain ⟨t, v₁, rfl, hspan, hsymbol⟩ := hop.forms
    have hbehind : Derives unary (v₂ ++ w)
        (ops.foldr (fun op e => .unary ⟨op.2.start, e.span.stop⟩ op.1 e) e) :=
      (Derives.seq hrest hoperand).map
    have hfirst : ∀ x ∈ unaryOp.first, ¬ x.Accepts (.symbol .parenOpen) :=
      List.forall_mem_cons.mpr ⟨nofun, List.forall_mem_singleton.mpr nofun⟩
    refine ⟨⟨t, heads_cons (first_ne rfl hfirst t v₁ _ hsymbol) _, ?_⟩, fun x hx => ?_⟩
    · show t.span.start = op.2.start
      rw [hspan]
      rfl
    · obtain rfl := Element.expr.inj (List.mem_singleton.mp hx)
      refine ⟨_, ?_, expr_of_unary hbehind⟩
      rw [List.append_assoc]
      exact (List.suffix_append _ _).isInfix

/-- In front of each operator of a level stands an expression. -/
theorem read_operands {op : Phrase BinaryOp} {operand : Phrase Expr} {more : List (BinaryOp × Expr)}
    {u v : List Located} {e : Expr} (hright : ∀ u e, Derives operand u e → Derives expr u e)
    (hfront : ∀ v more, Derives (.many (.seq op operand)) v more → Derives expr (u ++ v)
      (more.foldl (fun l r => .binary ⟨l.span.start, r.2.span.stop⟩ r.1 l r.2) e))
    (he : Read u e) (hmany : Derives (.many (.seq op operand)) v more) :
    Read (u ++ v) (more.foldl (fun l r => .binary ⟨l.span.start, r.2.span.stop⟩ r.1 l r.2) e) := by
  induction more using List.reverseRecOn generalizing v with
  | nil =>
    obtain rfl : v = [] := hmany.forms
    rwa [List.append_nil]
  | append_singleton more x ih =>
    obtain ⟨v, w, rfl, hbefore, hlast⟩ := hmany.many_concat
    obtain ⟨w₁, w₂, rfl, -, hoperand⟩ := hlast.forms
    rw [List.foldl_append, List.foldl_cons, List.foldl_nil, ← List.append_assoc]
    refine (ih hbefore).extend _ rfl fun y hy => ?_
    rcases List.mem_cons.mp hy with hy | hy
    · obtain rfl := Element.expr.inj hy
      exact ⟨_, (List.prefix_append _ _).isInfix, hfront v more hbefore⟩
    · obtain rfl := Element.expr.inj (List.mem_singleton.mp hy)
      refine ⟨w₂, ?_, hright _ _ hoperand⟩
      exact ((List.suffix_append w₁ w₂).trans (List.suffix_append _ _)).isInfix

theorem read_leftChain {n : Nat} {operand : Phrase Expr} (ops : List (Symbol × BinaryOp))
    (hoperand : ∀ u e, u.length < n → Derives operand u e → Read u e)
    (hexpr : ∀ u e, Derives (leftChain ops operand) u e → Derives expr u e) (u : List Located)
    (e : Expr) (hu : u.length < n) (h : Derives (leftChain ops operand) u e) : Read u e := by
  cases ops with
  | nil => exact hoperand u e hu h
  | cons o ops =>
    obtain ⟨⟨e, more⟩, rfl, hseq⟩ := h.forms
    obtain ⟨v, w, rfl, hfirst, hmany⟩ := hseq.forms
    rw [List.length_append] at hu
    exact read_operands (fun u e h => hexpr u e (derives_leftChain h))
      (fun v more hmany => hexpr _ _ (Derives.seq hfirst hmany).map)
      (hoperand v e (by omega) hfirst) hmany

theorem read_levels {n : Nat} (ls : List (List (Symbol × BinaryOp))) {operand : Phrase Expr}
    (hoperand : ∀ u e, u.length < n → Derives operand u e → Read u e)
    (hexpr : ∀ u e, Derives (ls.foldl (fun operand ops => leftChain ops operand) operand) u e →
      Derives expr u e) (u : List Located) (e : Expr) (hu : u.length < n)
    (h : Derives (ls.foldl (fun operand ops => leftChain ops operand) operand) u e) : Read u e := by
  induction ls generalizing operand with
  | nil => exact hoperand u e hu h
  | cons ops ls ih =>
    refine ih (read_leftChain ops hoperand fun u e h => ?_) hexpr h
    exact hexpr u e (derives_levels ls h)

/-- The tokens of an expression in parentheses are fewer, so the induction is on their number. -/
theorem read_expr {u : List Located} {e : Expr} (h : Derives expr u e) : Read u e := by
  have hbounded : ∀ n u e, u.length < n → Derives expr u e → Read u e := by
    intro n
    induction n with
    | zero => exact fun u _ hu => absurd hu (Nat.not_lt_zero u.length)
    | succ n ih =>
      exact fun u e hu h => read_levels levels (read_unary ih) (fun _ _ h => .rule h) u e hu h.forms
  exact hbounded _ u e (Nat.lt_succ_self u.length) h

/-! ### Arithmetic on integers -/

theorem operand_int {t : Located} {n : Int64} (ht : t.token = .int n) :
    Derives operand [t] (.literal t.span (.int n)) := by
  have hvalue : Denotes t.token (.int n) := ht ▸ .int n
  exact .left (Derives.value hvalue).spanned.map

theorem unary_of_operand {u : List Located} {e : Expr} (h : Derives operand u e) :
    Derives unary u e :=
  (Derives.nil.seq (suffixed_of_operand h)).map

/-- An integer behind a minus sign. -/
theorem unary_negative {minus t : Located} {n : Int64} (hm : minus.token = .symbol .minus)
    (ht : t.token = .int n) : Derives unary [minus, t]
      (.unary ⟨minus.span.start, t.span.stop⟩ .negate (.literal t.span (.int n))) := by
  have hsign : Derives (.spanned unaryOp) [minus] (.negate, minus.span) :=
    .spanned (.left (Derives.fixed hm).map)
  exact ((hsign.cons .nil).seq (suffixed_of_operand (operand_int ht))).map

/-- A quotient of two integers, of which the first stands in parentheses. -/
theorem derives_quotient {opening left closing slash right : Located} {m n : Int64}
    (ho : opening.token = .symbol .parenOpen) (hl : left.token = .int m)
    (hc : closing.token = .symbol .parenClose) (hs : slash.token = .symbol .slash)
    (hr : right.token = .int n) : Derives expr [opening, left, closing, slash, right]
      (.binary ⟨left.span.start, right.span.stop⟩ .div (.literal left.span (.int m))
        (.literal right.span (.int n))) := by
  have hparens : Derives operand [opening, left, closing] (.literal left.span (.int m)) :=
    .right (.right (.right (.right (.enclosed ho (expr_of_operand (operand_int hl)) hc))))
  have hslash : Derives (operator (.star, .mul) [(.slash, .div), (.percent, .rem)]) [slash] .div :=
    .right (.left (Derives.fixed hs).map)
  have hmore := (hslash.seq (unary_of_operand (operand_int hr))).cons .nil
  exact .rule (derives_levels levels.tail (((unary_of_operand hparens).seq hmore).map))

/-! ### Statements -/

theorem exists_spanned {β : Type} {p : Phrase α} {mk : α × Span → β} {u : List Located} {b : β}
    (h : Derives (.map mk (.spanned p)) u b) : ∃ a s, b = mk (a, s) ∧ Derives p u a := by
  obtain ⟨⟨a, s⟩, rfl, hspanned⟩ := h.forms
  obtain ⟨t, v, rfl, -, hpart⟩ := hspanned.forms
  exact ⟨a, s, rfl, hpart⟩

theorem eq_of_ofArm {arm : Expr × List Stmt} {x : Expr} (h : .expr x ∈ Element.ofArm arm) :
    x = arm.1 := by
  rcases List.mem_cons.mp h with hx | hx
  · exact Element.expr.inj hx
  · obtain ⟨_, -, hx⟩ := List.mem_map.mp hx
    cases hx

theorem among_guard {u : List Located} {arm : Expr × List Stmt} (h : Derives guard u arm) :
    Among expr u arm.1 := by
  obtain ⟨v, w, rfl, hcondition, -⟩ := h.forms
  exact ⟨v, (List.prefix_append v w).isInfix, hcondition⟩

theorem among_assigned {u : List Located} {x : Ident × Expr}
    (h : Derives (.seq (after ident (symbol .equals)) (after expr (symbol .semicolon))) u x) :
    Among expr u x.2 := by
  obtain ⟨v, w, rfl, -, hvalue⟩ := h.forms
  exact (Derives.after hvalue).mono (List.suffix_append v w).isInfix

theorem among_branch {u : List Located} {x : List (Expr × List Stmt) × Option (List Stmt)}
    (h : Derives (.map (fun x => (x.1 :: x.2.1, x.2.2)) (before (keyword .ifKw)
      (.seq guard (.seq (.many elseIf) (.optional otherwise))))) u x) :
    ∀ arm ∈ x.1, Among expr u arm.1 := by
  obtain ⟨⟨arm, more, last⟩, rfl, hbefore⟩ := h.forms
  obtain ⟨v, hv, hseq⟩ := Derives.before hbefore
  obtain ⟨v₁, v₂, rfl, hguard, hrest⟩ := hseq.forms
  obtain ⟨v₃, v₄, rfl, hmany, -⟩ := hrest.forms
  refine List.forall_mem_cons.mpr ⟨?_, fun b hb => ?_⟩
  · exact (among_guard hguard).mono ((List.prefix_append v₁ _).isInfix.trans hv)
  · obtain ⟨w, hw, helse⟩ := hmany.many_mem b hb
    obtain ⟨w', hw', hif⟩ := Derives.before helse
    obtain ⟨w'', hw'', hguard⟩ := Derives.before hif
    have hwithin : w'' <:+: v₁ ++ (v₃ ++ v₄) :=
      hw''.trans (hw'.trans (hw.trans ⟨v₁, v₄, by simp⟩))
    exact (among_guard hguard).mono (hwithin.trans hv)

/-- The expressions directly inside a statement are read from tokens of the statement. -/
theorem among_stmt {u : List Located} {s : Stmt} (h : Derives stmt u s) :
    ∀ x, .expr x ∈ Element.ofStmt s → Among expr u x := by
  intro x hx
  have hnot {ss : List Stmt} : .expr x ∉ ss.map Element.stmt := fun h => by
    obtain ⟨_, -, h⟩ := List.mem_map.mp h
    cases h
  rcases h.forms with hdeclare | h
  · obtain ⟨a, span, rfl, hpart⟩ := exists_spanned hdeclare
    obtain ⟨v, hv, hseq⟩ := Derives.before hpart
    obtain rfl : x = a.2 := by simpa [Element.ofStmt] using hx
    exact (among_assigned hseq).mono hv
  rcases h.forms with hif | h
  · obtain ⟨a, span, rfl, hpart⟩ := exists_spanned hif
    rcases List.mem_append.mp hx with hx | hx
    · obtain ⟨arm, harm, hx⟩ := List.mem_flatMap.mp hx
      rw [eq_of_ofArm hx]
      exact among_branch hpart arm harm
    · obtain ⟨_, -, hx⟩ := List.mem_flatMap.mp hx
      exact absurd hx hnot
  rcases h.forms with hwhile | h
  · obtain ⟨a, span, rfl, hpart⟩ := exists_spanned hwhile
    obtain ⟨v, hv, hguard⟩ := Derives.before hpart
    rw [eq_of_ofArm hx]
    exact (among_guard hguard).mono hv
  rcases h.forms with hfor | h
  · obtain ⟨⟨binding, start, stop, body⟩, span, rfl, hpart⟩ := exists_spanned hfor
    obtain ⟨v, hv, hseq⟩ := Derives.before hpart
    obtain ⟨v₁, v₂, rfl, -, hrest⟩ := hseq.forms
    obtain ⟨v₃, v₄, rfl, hstart, hrest⟩ := hrest.forms
    obtain ⟨v₅, v₆, rfl, hstop, -⟩ := hrest.forms
    have hfirst : Among expr u start := ⟨v₃, List.IsInfix.trans ⟨v₁, v₅ ++ v₆, by simp⟩ hv, hstart⟩
    cases stop with
    | none =>
      obtain rfl : x = start := by simpa [Element.ofStmt, forNode] using hx
      exact hfirst
    | some stop =>
      obtain ⟨w, hw, hbefore⟩ := hstop.optional_mem stop rfl
      have hlast : Among expr v₅ stop := (Derives.before hbefore).mono hw
      obtain rfl | rfl : x = start ∨ x = stop := by simpa [Element.ofStmt, forNode] using hx
      · exact hfirst
      · exact hlast.mono (List.IsInfix.trans ⟨v₁ ++ v₃, v₆, by simp⟩ hv)
  rcases h.forms with hreturn | h
  · obtain ⟨a, span, rfl, hpart⟩ := exists_spanned hreturn
    obtain ⟨v, hv, hafter⟩ := Derives.before hpart
    obtain ⟨w, hw, hoptional⟩ := Derives.after hafter
    obtain ⟨y, hy, hxy⟩ := List.mem_map.mp hx
    obtain rfl := Element.expr.inj hxy
    exact (hoptional.optional_mem y (Option.mem_toList.mp hy)).mono (hw.trans hv)
  rcases h.forms with hassign | hexpr
  · obtain ⟨a, span, rfl, hpart⟩ := exists_spanned hassign
    obtain rfl : x = a.2 := by simpa [Element.ofStmt] using hx
    exact among_assigned hpart
  · obtain ⟨a, span, rfl, hpart⟩ := exists_spanned hexpr
    obtain rfl : x = a := by simpa [Element.ofStmt] using hx
    exact Derives.after hpart

end Grammar

/-! ### Sources -/

/-- Each expression of a source is read from a run of its tokens. -/
theorem File.Has.among {source : List Char} {f : File} (h : parse source = .ok f) {e : Expr}
    (he : f.Has (.expr e)) : Among Grammar.expr (lex source) e := by
  have hall : ∀ x, f.Has x → ∀ e, x = .expr e → Among Grammar.expr (lex source) e := by
    intro x hx
    induction hx with
    | classDecl => exact nofun
    | @part x y outer mem ih =>
      rintro e rfl
      cases x with
      | expr e' =>
        obtain ⟨u, hu, hder⟩ := ih e' rfl
        exact ((Grammar.read_expr hder).operands e mem).mono hu
      | stmt s =>
        obtain ⟨t, v, hv, -, hsentence⟩ := ((spans_nest h).1 _ outer).exact
        exact (Grammar.among_stmt hsentence e mem).mono hv
      | classDecl c =>
        rcases List.mem_cons.mp mem with hname | hmember
        · cases hname
        · obtain ⟨m, -, hm⟩ := List.mem_map.mp hmember
          cases m <;> cases hm
      | method m => simp [Element.parts, Element.ofMethod, Element.ofParam] at mem
      | type t =>
        cases t with
        | named => cases mem
        | callback => simp [Element.parts, Element.ofType] at mem
      | name => cases mem
  exact hall _ he e rfl

/-- The first token of an element among the tokens of a source.  A statement is read from the tokens that
its span goes over; an expression, from a run of tokens, of which opening parentheses at the beginning do
not count. -/
def Element.FirstToken (ts : List Located) : Element → Located → Prop
  | .expr e, t => ∃ u, u <:+: ts ∧ Derives Grammar.expr u e ∧ Heads t u
  | x, t => ∃ v, t :: v <:+: ts ∧ x.span = cover t v ∧ x.Sentence (t :: v)

section

variable {source : List Char} {x : Element} {t t' : Located}

theorem Element.FirstToken.mem {ts : List Located} (h : x.FirstToken ts t) : t ∈ ts := by
  cases x with
  | expr e =>
    obtain ⟨u, hu, -, ht⟩ := h
    exact hu.subset ht.mem
  | _ =>
    obtain ⟨v, hv, -⟩ := h
    exact hv.subset List.mem_cons_self

/-- The span of an element begins with its first token. -/
theorem Element.FirstToken.start {ts : List Located} (h : x.FirstToken ts t) :
    t.span.start = x.span.start := by
  cases x with
  | expr e =>
    obtain ⟨u, -, hder, ht⟩ := h
    obtain ⟨t', ht', hstart⟩ := (Grammar.read_expr hder).head
    rw [ht.unique ht', hstart]
    rfl
  | _ =>
    obtain ⟨v, -, hspan, -⟩ := h
    rw [hspan]
    rfl

/-- Tokens that begin at the same place are the same. -/
theorem eq_of_start {ts : List Located} (h : InOrder ts) (ht : t ∈ ts) (ht' : t' ∈ ts)
    (hstart : t.span.start = t'.span.start) : t = t' := by
  induction ts with
  | nil => cases ht
  | cons s ts ih =>
    obtain ⟨hfirst, hrest⟩ := List.pairwise_cons.mp h.ordered
    have hs := h.nonempty s List.mem_cons_self
    rcases List.mem_cons.mp ht with rfl | hmem
    · rcases List.mem_cons.mp ht' with rfl | hmem'
      · rfl
      · have hle := hfirst t' hmem'
        omega
    · rcases List.mem_cons.mp ht' with rfl | hmem'
      · have hle := hfirst t hmem
        omega
      · exact ih ⟨hrest, fun t ht => h.nonempty t (List.mem_cons_of_mem s ht)⟩ hmem hmem'

theorem Element.FirstToken.unique (h : x.FirstToken (lex source) t)
    (h' : x.FirstToken (lex source) t') : t = t' :=
  eq_of_start (inOrder_lex source) h.mem h'.mem (h.start.trans h'.start.symm)

/-- **First tokens**: every element of a source has one. -/
theorem File.Has.firstToken {f : File} (h : parse source = .ok f) (hx : f.Has x) :
    ∃ t, x.FirstToken (lex source) t := by
  cases x with
  | expr e =>
    obtain ⟨u, hu, hder⟩ := hx.among h
    obtain ⟨t, ht, -⟩ := (Grammar.read_expr hder).head
    exact ⟨t, u, hu, hder, ht⟩
  | _ =>
    obtain ⟨t, v, hv, hspan, hsentence⟩ := ((spans_nest h).1 _ hx).exact
    exact ⟨t, v, hv, hspan, hsentence⟩

end

end ReportTemplate.Syntax
