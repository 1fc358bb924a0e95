import ReportTemplate.Proofs.Grammar.Covers
import ReportTemplate.Proofs.Syntax.Elements

/-!
# ReportTemplate.Proofs.Grammar.Layout — how the nodes of a sentence lie among its tokens

Every node stands at a run of tokens, from the first to the last of which its span goes, and its parts
stand at runs inside this one, one behind the other.  Parentheses leave tokens between the runs.

`Lays n p f` says that in the sentences of a phrase of less than `n` tokens the elements `f` lie so.  The
rules are used only for parts of a sentence that are shorter than it, so the induction is on `n`.
-/

namespace ReportTemplate.Syntax

open Phrase

variable {α β : Type}

/-! ## Elements among tokens -/

/-- Statements, methods and classes are read from all the tokens that they stand at. -/
def Element.Sentence (u : List Located) : Element → Prop
  | stmt s => Derives Grammar.stmt u s
  | method m => Derives Grammar.method u m
  | classDecl c => Derives (.rule .classDecl) u c
  | _ => True

mutual

/-- The element stands at the tokens: its span goes from the first to the last of them, and its parts
lie among them. -/
inductive Stands : List Located → Element → Prop
  | node {t : Located} {v : List Located} {x : Element} (span : x.span = cover t v)
      (sentence : x.Sentence (t :: v)) (parts : Laid (t :: v) x.parts) : Stands (t :: v) x

/-- The elements stand among the tokens, one behind the other. -/
inductive Laid : List Located → List Element → Prop
  | nil (gap : List Located) : Laid gap []
  | cons {u v : List Located} {x : Element} {xs : List Element} (gap : List Located)
      (head : Stands u x) (tail : Laid v xs) : Laid (gap ++ (u ++ v)) (x :: xs)

end

theorem Laid.behind {u : List Located} {xs : List Element} (h : Laid u xs) (gap : List Located) :
    Laid (gap ++ u) xs := by
  cases h with
  | nil gap' => exact .nil _
  | cons gap' head tail =>
    rw [← List.append_assoc]
    exact .cons _ head tail

theorem Laid.append {u v : List Located} {xs ys : List Element} (h : Laid u xs) (h' : Laid v ys) :
    Laid (u ++ v) (xs ++ ys) := by
  induction xs generalizing u with
  | nil => exact h'.behind u
  | cons x xs ih =>
    cases h with
    | cons gap head tail =>
      rw [List.append_assoc, List.append_assoc]
      exact .cons gap head (ih tail)

theorem Laid.front {u : List Located} {xs : List Element} (h : Laid u xs) (gap : List Located) :
    Laid (u ++ gap) xs := by
  have hall := h.append (.nil gap)
  rwa [List.append_nil] at hall

theorem Stands.laid {u : List Located} {x : Element} (h : Stands u x) : Laid u [x] := by
  have hone := Laid.cons [] h (.nil [])
  rwa [List.append_nil] at hone

/-- A single element stands at some of the tokens. -/
theorem Laid.single {u : List Located} {x : Element} (h : Laid u [x]) :
    ∃ before t v after, u = before ++ (t :: v ++ after) ∧ x.span = cover t v ∧ Stands (t :: v) x := by
  cases h with
  | cons gap head tail =>
    cases head with
    | @node t v _ span sentence parts => exact ⟨gap, t, v, _, rfl, span, .node span sentence parts⟩

theorem Laid.mem {u : List Located} {xs : List Element} (h : Laid u xs) :
    ∀ y ∈ xs, ∃ v, v <:+: u ∧ Stands v y := by
  induction xs generalizing u with
  | nil => exact nofun
  | cons x xs ih =>
    cases h with
    | @cons v w _ _ gap head tail =>
      intro y hy
      rcases List.mem_cons.mp hy with rfl | hy
      · exact ⟨v, ⟨gap, w, by simp⟩, head⟩
      · obtain ⟨v', hv', hstands⟩ := ih tail y hy
        exact ⟨v', hv'.trans ⟨gap ++ v, [], by simp⟩, hstands⟩

/-! ### Elements put together from parts -/

/-- An element of the same span and without parts stands at the same tokens. -/
theorem Laid.renamed {u : List Located} {x y : Element} (h : Laid u [x]) (hspan : y.span = x.span)
    (hparts : y.parts = []) (hsentence : ∀ v, y.Sentence v) : Laid u [y] := by
  obtain ⟨before, t, v, after, rfl, hx, -⟩ := h.single
  have hy : Stands (t :: v) y := by
    refine .node (hspan.trans hx) (hsentence _) ?_
    rw [hparts]
    exact .nil _
  exact (hy.laid.front after).behind before

/-- An element that begins with `x` and ends with the last of the tokens behind it. -/
theorem Laid.extend {u w : List Located} {t : Located} {x y : Element} {ys : List Element}
    (hx : Laid u [x]) (hys : Laid (t :: w) ys) (hspan : y.span = ⟨x.span.start, (cover t w).stop⟩)
    (hparts : y.parts = x :: ys) (hsentence : ∀ v, y.Sentence v) : Laid (u ++ t :: w) [y] := by
  obtain ⟨before, s, v, after, rfl, hxspan, hstands⟩ := hx.single
  have hy : Stands (s :: (v ++ after ++ t :: w)) y := by
    refine .node ?_ (hsentence _) ?_
    · rw [hspan, hxspan, cover_append]
      rfl
    · have hparted : Laid ([] ++ (s :: v ++ (after ++ t :: w))) (x :: ys) :=
        .cons [] hstands (hys.behind after)
      rw [hparts]
      simpa using hparted
  have hlaid := hy.laid.behind before
  simpa only [List.append_assoc, List.cons_append] using hlaid

/-- An element with two parts, from the start of the first to the end of the second. -/
theorem Laid.pair {u v : List Located} {x x' y : Element} (hx : Laid u [x]) (hx' : Laid v [x'])
    (hspan : y.span = ⟨x.span.start, x'.span.stop⟩) (hparts : y.parts = [x, x'])
    (hsentence : ∀ w, y.Sentence w) : Laid (u ++ v) [y] := by
  obtain ⟨before, t, w, after, rfl, hspan', hstands⟩ := hx'.single
  have hy : Laid (u ++ before ++ t :: w) [y] :=
    (hx.front before).extend hstands.laid (by rw [hspan, hspan']) hparts hsentence
  have hlaid := hy.front after
  simpa only [List.append_assoc] using hlaid

/-- An element with one part, from a token in front of it to its end. -/
theorem Laid.prefixed {t : Located} {u v : List Located} {x y : Element} (hx : Laid v [x])
    (hspan : y.span = ⟨t.span.start, x.span.stop⟩) (hparts : y.parts = [x])
    (hsentence : ∀ w, y.Sentence w) : Laid (t :: u ++ v) [y] := by
  obtain ⟨before, s, w, after, rfl, hxspan, hstands⟩ := hx.single
  have hy : Stands (t :: (u ++ before ++ s :: w)) y := by
    refine .node ?_ (hsentence _) ?_
    · rw [hspan, hxspan, cover_append]
    · rw [hparts]
      exact hstands.laid.behind (t :: (u ++ before))
  have hlaid := hy.laid.front after
  simpa only [List.append_assoc, List.cons_append] using hlaid

/-! ## Phrases -/

namespace Phrase

/-- In the sentences of less than `n` tokens, the elements lie one behind the other. -/
def Lays (n : Nat) (p : Phrase α) (f : α → List Element) : Prop :=
  ∀ u a, u.length < n → Derives p u a → Laid u (f a)

namespace Lays

variable {n : Nat} {p : Phrase α} {q : Phrase β} {f : α → List Element} {g : β → List Element}

theorem mono {m : Nat} (h : Lays m p f) (hle : n ≤ m) : Lays n p f :=
  fun u a hu hder => h u a (Nat.lt_of_lt_of_le hu hle) hder

theorem zero (p : Phrase α) (f : α → List Element) : Lays 0 p f :=
  fun u _ hu => absurd hu (Nat.not_lt_zero u.length)

/-- A phrase without elements. -/
theorem none (n : Nat) (p : Phrase α) : Lays n p fun _ => [] := fun u _ _ _ => .nil u

theorem map {h : α → β} (hp : Lays n p fun a => g (h a)) : Lays n (.map h p) g := by
  intro u b hu hder
  obtain ⟨a, rfl, hpart⟩ := hder.forms
  exact hp u a hu hpart

theorem seq (hp : Lays n p f) (hq : Lays n q g) : Lays n (.seq p q) fun x => f x.1 ++ g x.2 := by
  intro w x hw hder
  obtain ⟨u, v, rfl, hleft, hright⟩ := hder.forms
  rw [List.length_append] at hw
  exact (hp u x.1 (by omega) hleft).append (hq v x.2 (by omega) hright)

/-- Behind a phrase that has tokens, the sentence is shorter. -/
theorem seqBehind (hp : Lays (n + 1) p f) (hnull : p.nullable = false) (hadv : p.advancing = true)
    (hq : Lays n q g) : Lays (n + 1) (.seq p q) fun x => f x.1 ++ g x.2 := by
  intro w x hw hder
  obtain ⟨u, v, rfl, hleft, hright⟩ := hder.forms
  have hu : 0 < u.length := List.length_pos_iff.mpr ((hleft.begins hadv).ne_nil hnull)
  rw [List.length_append] at hw
  exact (hp u x.1 (by omega) hleft).append (hq v x.2 (by omega) hright)

theorem before (m : Mark) (hq : Lays n q g) : Lays (n + 1) (Phrase.before (.fixed m) q) g := by
  have hboth : Lays (n + 1) (.seq (.fixed m) q) fun x => g x.2 :=
    (none (n + 1) (.fixed m)).seqBehind rfl rfl hq
  exact map hboth

theorem after (hp : Lays n p f) (m : Mark) : Lays (n + 1) (Phrase.after p (.fixed m)) f := by
  refine map fun w x hw hder => ?_
  obtain ⟨u, v, rfl, hleft, hright⟩ := hder.forms
  obtain ⟨t, rfl, -⟩ := hright.forms
  rw [List.length_append, List.length_singleton] at hw
  exact (hp u x.1 (by omega) hleft).front [t]

theorem between {opening closing : Symbol} (hp : Lays n p f) :
    Lays (n + 1) (Phrase.between opening closing p) f :=
  ((hp.after _).mono (Nat.le_succ n)).before _

theorem either {p' : Phrase α} (hp : Lays n p f) (hp' : Lays n p' f) :
    Lays n (.either p p') f := by
  intro u a hu hder
  rcases hder.forms with hleft | hright
  · exact hp u a hu hleft
  · exact hp' u a hu hright

theorem optional (hp : Lays n p f) : Lays n (.optional p) fun o => o.toList.flatMap f := by
  intro u o hu hder
  cases o with
  | none => exact .nil u
  | some a =>
    have hpart : Derives p u a := hder.forms
    simpa using hp u a hu hpart

theorem many (hp : Lays n p f) : Lays n (.many p) fun as => as.flatMap f := by
  intro w as
  induction as generalizing w with
  | nil => exact fun _ _ => .nil w
  | cons a as ih =>
    intro hw hder
    obtain ⟨u, v, rfl, hhead, htail⟩ := hder.forms
    rw [List.length_append] at hw
    exact (hp u a (by omega) hhead).append (ih v (by omega) htail)

theorem items (hp : Lays n p f) : Lays n (.items p) fun as => as.flatMap f := by
  intro w as
  induction as generalizing w with
  | nil => exact fun _ _ => .nil w
  | cons a as ih =>
    intro hw hder
    rcases hder.forms with ⟨rfl, hlast⟩ | ⟨u, t, v, rfl, -, hhead, htail⟩
    · simpa using hp w a hw hlast
    · rw [List.length_append, List.length_cons] at hw
      have htail : Laid (t :: v) (as.flatMap f) := (ih v (by omega) htail).behind [t]
      exact (hp u a (by omega) hhead).append htail

/-- A list of constructs, one element for each. -/
theorem elements {el : α → Element} (hp : Lays n p fun a => [el a]) :
    Lays n (.items p) (List.map el) ∧ Lays n (.many p) (List.map el) := by
  have hitems := hp.items
  have hmany := hp.many
  simp only [← List.map_eq_flatMap] at hitems hmany
  exact ⟨hitems, hmany⟩

theorem labelled {l : Label} (hp : Lays n p f) : Lays n (.labelled l p) f :=
  fun u a hu hder => hp u a hu hder.forms

theorem rule {m : Nonterminal α} (hp : Lays n m.body f) : Lays n (.rule m) f :=
  fun u a hu hder => hp u a hu hder.forms

/-- A construct with a span of its own, around the elements of its parts. -/
theorem node {el : β → Element} {mk : α × Span → β} (hp : Lays n p f)
    (hspan : ∀ a s, (el (mk (a, s))).span = s) (hparts : ∀ a s, (el (mk (a, s))).parts = f a)
    (hsentence : ∀ u b, Derives (.map mk (.spanned p)) u b → (el b).Sentence u) :
    Lays n (.map mk (.spanned p)) fun b => [el b] := by
  intro u b hu hder
  have hder' := hder
  obtain ⟨⟨a, s⟩, rfl, hspanned⟩ := hder.forms
  obtain ⟨t, v, rfl, rfl, hpart⟩ := hspanned.forms
  refine (Stands.node (hspan a _) (hsentence _ _ hder') ?_).laid
  rw [hparts]
  exact hp _ a hu hpart

end Lays

end Phrase

end ReportTemplate.Syntax
