import ReportTemplate.Proofs.Grammar.Derivation

/-!
# ReportTemplate.Proofs.Grammar.Lookahead — two tokens tell the way

Ordered choice takes the first alternative that can be read, and a repetition goes on while it can.
`Ends p v` says that this does no harm in front of the tokens `v`: no part of a sentence of `p` could
take more, and no earlier alternative could take its beginning.  Whether this is so is told by two tokens
behind any place.
-/

namespace ReportTemplate.Syntax

variable {α β : Type}

/-! ### Beginnings of two tokens -/

/-- What one token must be, and the token behind it if there is a condition on one. -/
structure Lookahead where
  head : Terminal
  next : Option Terminal
deriving DecidableEq

namespace Lookahead

/-- Some tokens begin as described. -/
def Opens (g : Lookahead) (v : List Located) : Prop :=
  ∃ t w, v = t :: w ∧ g.head.Accepts t.token ∧
    ∀ y ∈ g.next, ∃ t' w', w = t' :: w' ∧ y.Accepts t'.token

/-- Some tokens begin as described, and are one token only if there is no condition on a second. -/
def Describes (g : Lookahead) (u : List Located) : Prop := g.Opens u ∧ (g.next = none → u.length = 1)

/-- The beginning of a text behind which tokens can follow, or with no token behind it if it is `alone`. -/
def andThen (g : Lookahead) (after : List Terminal) (alone : Bool) : List Lookahead :=
  match g.next with
  | some _ => [g]
  | none => (if alone then [g] else []) ++ after.map fun y => ⟨g.head, some y⟩

/-- No text can begin as both describe, whatever stands behind the text that `q` describes. -/
def excludes (g q : Lookahead) : Bool :=
  match g.next, q.next with
  | none, _ => !g.head.clash q.head
  | some _, none => true
  | some y, some z => !(g.head.clash q.head && y.clash z)

/-- What must not stand behind the one token that `q` describes. -/
def residue (g q : Lookahead) : List Lookahead :=
  match g.next, q.next with
  | some y, none => if g.head.clash q.head then [⟨y, none⟩] else []
  | _, _ => []

/-- Whatever begins as `g` describes begins as `h` does. -/
def covers (h g : Lookahead) : Bool := h.head = g.head ∧ (h.next = none ∨ h.next = g.next)

theorem Opens.covered {g h : Lookahead} {v : List Located} (hg : g.Opens v)
    (hcovers : h.covers g = true) : h.Opens v := by
  obtain ⟨t, w, rfl, ht, hnext⟩ := hg
  obtain ⟨hhead, heq⟩ := of_decide_eq_true hcovers
  refine ⟨t, w, rfl, hhead ▸ ht, fun y hy => ?_⟩
  rcases heq with heq | heq
  · rw [heq] at hy
    cases hy
  · exact hnext y (heq ▸ hy)

theorem Opens.append {g : Lookahead} {u : List Located} (h : g.Opens u) (v : List Located) :
    g.Opens (u ++ v) := by
  obtain ⟨t, w, rfl, ht, hnext⟩ := h
  refine ⟨t, w ++ v, rfl, ht, fun y hy => ?_⟩
  obtain ⟨t', w', rfl, ht'⟩ := hnext y hy
  exact ⟨t', w' ++ v, rfl, ht'⟩

theorem Describes.single {x : Terminal} {t : Located} (h : x.Accepts t.token) :
    Describes ⟨x, none⟩ [t] :=
  ⟨⟨t, [], rfl, h, nofun⟩, fun _ => rfl⟩

/-- Two texts behind one another begin like the first, or like its one token and the second. -/
theorem Describes.andThen {g : Lookahead} {u v : List Located} {after : List Terminal} {alone : Bool}
    (h : g.Describes u) (halone : v = [] → alone = true)
    (hafter : ∀ t ∈ v.head?, ∃ x ∈ after, x.Accepts t.token) :
    ∃ g' ∈ g.andThen after alone, g'.Describes (u ++ v) := by
  obtain ⟨x, _ | y⟩ := g
  · obtain ⟨⟨t, w, rfl, ht, -⟩, hone⟩ := h
    obtain rfl : w = [] := List.length_eq_zero_iff.mp (Nat.succ.inj (hone rfl))
    cases v with
    | nil =>
      refine ⟨⟨x, none⟩, List.mem_append_left _ ?_, .single ht⟩
      rw [if_pos (halone rfl)]
      exact List.mem_singleton_self _
    | cons t' v =>
      obtain ⟨y, hy, hy'⟩ := hafter t' rfl
      refine ⟨⟨x, some y⟩, List.mem_append_right _ (List.mem_map_of_mem hy),
        ⟨t, t' :: v, rfl, ht, fun z hz => ?_⟩, nofun⟩
      obtain rfl := Option.some.inj hz
      exact ⟨t', v, rfl, hy'⟩
  · exact ⟨_, List.mem_singleton_self _, h.1.append v, nofun⟩

theorem Describes.andComma {g : Lookahead} {u v : List Located} (h : g.Describes u)
    (hcomma : ∀ t ∈ v.head?, t.token = .symbol .comma) :
    ∃ g' ∈ g.andThen [.mark (.symbol .comma)] true, g'.Describes (u ++ v) :=
  h.andThen (fun _ => rfl) fun t ht => ⟨_, List.mem_singleton_self _, hcomma t ht⟩

/-- What a text begins with that another describes is excluded, or left to what stands behind it. -/
theorem not_opens_append {g q : Lookahead} {u v : List Located} (hq : q.Describes u)
    (hexcludes : g.excludes q = true) (hresidue : ∀ r ∈ g.residue q, ¬ r.Opens v) :
    ¬ g.Opens (u ++ v) := by
  rintro ⟨t, w, htw, ht, hnext⟩
  obtain ⟨⟨t₁, w₁, rfl, ht₁, hnext₁⟩, hone⟩ := hq
  obtain ⟨rfl, rfl⟩ := List.cons.inj htw
  have hclash := Terminal.clash_of_accepts ht ht₁
  obtain ⟨x, _ | y⟩ := g
  · exact absurd hclash (by simpa [excludes] using hexcludes)
  obtain ⟨t', w', hw', ht'⟩ := hnext y rfl
  obtain ⟨x₁, _ | z⟩ := q
  · obtain rfl : w₁ = [] := List.length_eq_zero_iff.mp (Nat.succ.inj (hone rfl))
    refine hresidue ⟨y, none⟩ ?_ ⟨t', w', hw', ht', nofun⟩
    unfold residue
    dsimp only
    rw [if_pos hclash]
    exact List.mem_singleton_self _
  · obtain ⟨t₂, w₂, rfl, ht₂⟩ := hnext₁ z rfl
    obtain ⟨rfl, -⟩ := List.cons.inj hw'
    have hclash' := Terminal.clash_of_accepts ht' ht₂
    simp only [excludes, hclash, hclash'] at hexcludes
    cases hexcludes

end Lookahead

/-- Some tokens begin as none of the list describes. -/
def Clear (G : List Lookahead) (v : List Located) : Prop := ∀ g ∈ G, ¬ g.Opens v

def apart (G Q : List Lookahead) : Bool := G.all fun g => Q.all g.excludes

def residues (G Q : List Lookahead) : List Lookahead := G.flatMap fun g => Q.flatMap g.residue

namespace Clear

variable {G H Q : List Lookahead} {u v : List Located}

theorem nil (G : List Lookahead) : Clear G [] := by
  rintro g - ⟨t, w, htw, -⟩
  cases htw

theorem of_append (h : Clear (G ++ H) v) : Clear G v ∧ Clear H v :=
  ⟨fun g hg => h g (List.mem_append_left _ hg), fun g hg => h g (List.mem_append_right _ hg)⟩

theorem covered (h : Clear G v) (hcovers : (H.all fun g => G.any fun h => h.covers g) = true) :
    Clear H v := by
  intro g hg hopens
  obtain ⟨h', hh', hcovers⟩ := List.any_eq_true.mp (List.all_eq_true.mp hcovers g hg)
  exact h h' hh' (hopens.covered hcovers)

/-- A token that begins nothing of the list. -/
theorem of_mark {m : Mark} {t : Located} (ht : t.token = m.token)
    (h : (G.all fun g => !g.head.clash (.mark m)) = true) : Clear G (t :: v) := by
  rintro g hg ⟨t', w, htw, hhead, -⟩
  obtain ⟨rfl, rfl⟩ := List.cons.inj htw
  have hclash := Terminal.clash_of_accepts (y := .mark m) hhead ht
  have happart := List.all_eq_true.mp h g hg
  rw [hclash] at happart
  cases happart

theorem append (hapart : apart G Q = true) (hu : u ≠ [] → ∃ q ∈ Q, q.Describes u)
    (hresidues : Clear (residues G Q) v) (hnil : u = [] → Clear G v) : Clear G (u ++ v) := by
  intro g hg
  by_cases h : u = []
  · subst h
    exact hnil rfl g hg
  · obtain ⟨q, hq, hdescribes⟩ := hu h
    refine Lookahead.not_opens_append hdescribes
      (List.all_eq_true.mp (List.all_eq_true.mp hapart g hg) q hq) fun r hr => hresidues r ?_
    exact List.mem_flatMap.mpr ⟨g, hg, List.mem_flatMap.mpr ⟨q, hq, hr⟩⟩

end Clear

/-! ### How sentences begin -/

namespace Grammar

/-- The terminals that can stand behind an operand in an expression. -/
def behindOperand : List Terminal :=
  .mark (.symbol .dot) :: .mark (.symbol .bracketOpen) ::
    levels.flatMap fun ops => ops.map fun o => .mark (.symbol o.1)

end Grammar

/-- How the sentences of a construct begin. -/
def Nonterminal.starts : {α : Type} → Nonterminal α → List Lookahead
  | _, .expr =>
    let closing : List Terminal := [.mark (.symbol .bracketClose)]
    [.symbol .minus, .symbol .bang, .symbol .bracketOpen, .symbol .parenOpen].flatMap
        (fun m => (Nonterminal.first .expr ++ closing).map fun y => ⟨.mark m, some y⟩) ++
      ⟨.value, none⟩ :: Grammar.behindOperand.map (fun y => ⟨.value, some y⟩) ++
      ⟨.name, none⟩ :: (.mark (.symbol .parenOpen) :: Grammar.behindOperand).map
        fun y => ⟨.name, some y⟩
  | _, .type => [⟨.mark (.keyword .fnKw), some (.mark (.symbol .parenOpen))⟩, ⟨.name, none⟩]
  | _, .block => [.mark (.symbol .braceClose), .mark (.keyword .letKw), .mark (.keyword .ifKw),
      .mark (.keyword .whileKw), .mark (.keyword .forKw), .mark (.keyword .returnKw), .name].map
        (fun y => ⟨.mark (.symbol .braceOpen), some y⟩) ++
      (Nonterminal.first .expr).map fun y => ⟨.mark (.symbol .braceOpen), some y⟩
  | _, .classDecl => [⟨.mark (.keyword .classKw), some .name⟩]

/-- How the sentences of a phrase begin, the empty one aside. -/
def Phrase.starts : {α : Type} → Phrase α → List Lookahead
  | _, .fixed m => [⟨.mark m, none⟩]
  | _, .name => [⟨.name, none⟩]
  | _, .value => [⟨.value, none⟩]
  | _, .seq p q => p.starts.flatMap (fun g => g.andThen q.first q.nullable) ++
      if p.nullable then q.starts else []
  | _, .either p q => p.starts ++ q.starts
  | _, .map _ p | _, .optional p | _, .spanned p | _, .labelled _ p => p.starts
  | _, .many p => p.starts.flatMap fun g => g.andThen p.first true
  | _, .items p => p.starts.flatMap fun g => g.andThen [.mark (.symbol .comma)] true
  | _, .rule n => n.starts

theorem Nonterminal.body_starts (n : Nonterminal α) : n.body.starts ⊆ n.starts := by
  cases n with
  | expr => decide
  | type => decide
  | block => decide
  | classDecl => decide

/-- A sentence begins as one of the phrase's beginnings describes. -/
theorem Derives.described {p : Phrase α} {u : List Located} {a : α} (h : Derives p u a) :
    p.advancing = true → u ≠ [] → ∃ g ∈ p.starts, g.Describes u := by
  induction h with
  | fixed h => exact fun _ _ => ⟨_, List.mem_singleton_self _, .single h⟩
  | name h => exact fun _ _ => ⟨_, List.mem_singleton_self _, .single ⟨_, h⟩⟩
  | value h => exact fun _ _ => ⟨_, List.mem_singleton_self _, .single ⟨_, h⟩⟩
  | map part ih => exact ih
  | @seq _ _ p q u v _ _ left right ihl ihr =>
    intro h hne
    obtain ⟨hp, hq⟩ := Bool.and_eq_true_iff.mp h
    by_cases hu : u = []
    · subst hu
      obtain ⟨g, hg, hdescribes⟩ := ihr hq hne
      refine ⟨g, List.mem_append_right _ ?_, hdescribes⟩
      rwa [if_pos ((left.begins hp).nullable rfl)]
    · obtain ⟨g, hg, hdescribes⟩ := ihl hp hu
      have hbegins := right.begins hq
      obtain ⟨g', hg', hdescribes'⟩ := hdescribes.andThen hbegins.nullable hbegins.head
      exact ⟨g', List.mem_append_left _ (List.mem_flatMap.mpr ⟨g, hg, hg'⟩), hdescribes'⟩
  | left part ih =>
    intro h hne
    obtain ⟨g, hg, hdescribes⟩ := ih (Bool.and_eq_true_iff.mp h).1 hne
    exact ⟨g, List.mem_append_left _ hg, hdescribes⟩
  | right part ih =>
    intro h hne
    obtain ⟨g, hg, hdescribes⟩ := ih (Bool.and_eq_true_iff.mp h).2 hne
    exact ⟨g, List.mem_append_right _ hg, hdescribes⟩
  | absent => exact fun _ hne => absurd rfl hne
  | present part ih => exact ih
  | nil => exact fun _ hne => absurd rfl hne
  | @cons _ p u v a as head tail ih _ =>
    intro h hne
    obtain ⟨hnull, hp⟩ := Phrase.advancing_repeated h
    obtain ⟨g, hg, hdescribes⟩ := ih hp ((head.begins hp).ne_nil hnull)
    obtain ⟨g', hg', hdescribes'⟩ := hdescribes.andThen (fun _ => rfl) (tail.begins h).head
    exact ⟨g', List.mem_flatMap.mpr ⟨g, hg, hg'⟩, hdescribes'⟩
  | noItems => exact fun _ hne => absurd rfl hne
  | lastItem part ih =>
    intro h hne
    obtain ⟨g, hg, hdescribes⟩ := ih (Bool.and_eq_true_iff.mp h).2 hne
    obtain ⟨g', hg', hdescribes'⟩ := hdescribes.andComma (v := []) nofun
    rw [List.append_nil] at hdescribes'
    exact ⟨g', List.mem_flatMap.mpr ⟨g, hg, hg'⟩, hdescribes'⟩
  | @item _ p u v t a as head comma tail ih _ =>
    intro h hne
    obtain ⟨hnull, hp⟩ := Phrase.advancing_repeated h
    obtain ⟨g, hg, hdescribes⟩ := ih hp ((head.begins hp).ne_nil hnull)
    obtain ⟨g', hg', hdescribes'⟩ := hdescribes.andComma (v := t :: v) fun t' ht' =>
      Option.some.inj ht' ▸ comma
    exact ⟨g', List.mem_flatMap.mpr ⟨g, hg, hg'⟩, hdescribes'⟩
  | spanned part ih => exact fun h => ih (Bool.and_eq_true_iff.mp h).2
  | labelled part ih => exact ih
  | @rule _ n _ _ part ih =>
    intro _ hne
    obtain ⟨g, hg, hdescribes⟩ := ih n.body_advancing hne
    exact ⟨g, n.body_starts hg, hdescribes⟩

/-! ### How phrases could go on -/

/-- What a longer sentence of a construct could go on with. -/
def Nonterminal.goesOn : {α : Type} → Nonterminal α → List Lookahead
  | _, .expr => (.mark (.symbol .parenOpen) :: Grammar.behindOperand).map fun y => ⟨y, none⟩
  | _, _ => []

/-- What a longer sentence of a phrase, or an earlier alternative, could go on with. -/
def Phrase.goesOn : {α : Type} → Phrase α → List Lookahead
  | _, .fixed _ | _, .name | _, .value => []
  | _, .map _ p | _, .spanned p | _, .labelled _ p => p.goesOn
  | _, .seq p q => q.goesOn ++ (residues p.goesOn q.starts ++ if q.nullable then p.goesOn else [])
  | _, .either p q =>
    p.goesOn ++ (q.goesOn ++ (residues p.starts q.starts ++ if q.nullable then p.starts else []))
  | _, .optional p => p.starts ++ p.goesOn
  | _, .many p =>
    p.starts ++ (p.goesOn ++ residues p.goesOn (p.starts.flatMap fun g => g.andThen p.first true))
  | _, .items p => ⟨.mark (.symbol .comma), none⟩ :: (p.starts ++ p.goesOn)
  | _, .rule n => n.goesOn

/-- Two tokens tell which alternative to take and whether to go on. -/
def Phrase.predictive : {α : Type} → Phrase α → Bool
  | _, .fixed _ | _, .name | _, .value | _, .rule _ => true
  | _, .map _ p | _, .spanned p | _, .labelled _ p => p.predictive
  | _, .seq p q => p.predictive && (q.predictive && apart p.goesOn q.starts)
  | _, .either p q => p.predictive && (q.predictive && (!p.nullable && apart p.starts q.starts))
  | _, .optional p => p.predictive && !p.nullable
  | _, .many p =>
    p.predictive && apart p.goesOn (p.starts.flatMap fun g => g.andThen p.first true)
  | _, .items p => p.predictive && p.goesOn.all fun g => !g.head.clash (.mark (.symbol .comma))

theorem Nonterminal.body_predictive (n : Nonterminal α) : n.body.predictive = true := by
  cases n <;> decide +kernel

theorem Nonterminal.body_goesOn (n : Nonterminal α) :
    (n.body.goesOn.all fun g => n.goesOn.any fun h => h.covers g) = true := by
  cases n <;> decide +kernel

/-! ### Places where a sentence ends -/

/-- No sentence of the phrase stands here. -/
def Phrase.Blocks (p : Phrase α) (v : List Located) : Prop := ∀ w a, Derives p w a → ¬ w <+: v

/-- In front of some tokens, no part of a sentence could be read further, and no earlier alternative could
be read instead. -/
def Phrase.Ends : {α : Type} → Phrase α → List Located → Prop
  | _, .fixed _, _ | _, .name, _ | _, .value, _ => True
  | _, .map _ p, v | _, .spanned p, v | _, .labelled _ p, v => p.Ends v
  | _, .seq p q, v => q.Ends v ∧ ∀ u b, Derives q u b → p.Ends (u ++ v)
  | _, .either p q, v => p.Ends v ∧ q.Ends v ∧ ∀ u b, Derives q u b → p.Blocks (u ++ v)
  | _, .optional p, v => p.Blocks v ∧ p.Ends v
  | _, .many p, v => p.Blocks v ∧ ∀ u as, Derives (.many p) u as → p.Ends (u ++ v)
  | _, .items p, v => Clear [⟨.mark (.symbol .comma), none⟩] v ∧ p.Blocks v ∧ p.Ends v ∧
      ∀ (t : Located) w, t.token = .symbol .comma → p.Ends (t :: w)
  | _, .rule n, v => Clear n.goesOn v

theorem Phrase.blocks_of_clear {p : Phrase α} (hadv : p.advancing = true) (hnull : p.nullable = false)
    {v : List Located} (h : Clear p.starts v) : p.Blocks v := by
  rintro w a hw ⟨s, rfl⟩
  obtain ⟨g, hg, hdescribes⟩ := hw.described hadv ((hw.begins hadv).ne_nil hnull)
  exact h g hg (hdescribes.1.append s)

theorem Clear.append_derives {q : Phrase β} {G : List Lookahead} {u v : List Located} {b : β}
    (hu : Derives q u b) (hadv : q.advancing = true) (hapart : apart G q.starts = true)
    (hresidues : Clear (residues G q.starts) v) (hnull : q.nullable = true → Clear G v) :
    Clear G (u ++ v) :=
  .append hapart (hu.described hadv) hresidues fun h => hnull ((hu.begins hadv).nullable h)

/-- Two tokens that cannot go on with a phrase end it. -/
theorem Phrase.ends_of_clear (p : Phrase α) (hadv : p.advancing = true) (hp : p.predictive = true)
    {v : List Located} (h : Clear p.goesOn v) : p.Ends v := by
  induction p generalizing v with
  | fixed m => trivial
  | name => trivial
  | value => trivial
  | map f p ih => exact ih hadv hp h
  | seq p q ihp ihq =>
    obtain ⟨hap, haq⟩ := Bool.and_eq_true_iff.mp hadv
    obtain ⟨hpp, hpq⟩ := Bool.and_eq_true_iff.mp hp
    obtain ⟨hpq, hapart⟩ := Bool.and_eq_true_iff.mp hpq
    obtain ⟨hclear, hrest⟩ := h.of_append
    obtain ⟨hresidues, hnull⟩ := hrest.of_append
    refine ⟨ihq haq hpq hclear, fun u b hu => ihp hap hpp ?_⟩
    exact .append_derives hu haq hapart hresidues fun hq => by rwa [if_pos hq] at hnull
  | either p q ihp ihq =>
    obtain ⟨hap, haq⟩ := Bool.and_eq_true_iff.mp hadv
    obtain ⟨hpp, hpq⟩ := Bool.and_eq_true_iff.mp hp
    obtain ⟨hpq, hpq'⟩ := Bool.and_eq_true_iff.mp hpq
    obtain ⟨hpnull, hapart⟩ := Bool.and_eq_true_iff.mp hpq'
    obtain ⟨hclear, hrest⟩ := h.of_append
    obtain ⟨hclear', hrest⟩ := hrest.of_append
    obtain ⟨hresidues, hnull⟩ := hrest.of_append
    refine ⟨ihp hap hpp hclear, ihq haq hpq hclear', fun u b hu => ?_⟩
    refine Phrase.blocks_of_clear hap (Bool.not_eq_true' _ ▸ hpnull) ?_
    exact .append_derives hu haq hapart hresidues fun hq => by rwa [if_pos hq] at hnull
  | optional p ih =>
    obtain ⟨hp, hnull⟩ := Bool.and_eq_true_iff.mp hp
    obtain ⟨hblocked, hclear⟩ := h.of_append
    replace hadv : p.advancing = true := hadv
    exact ⟨Phrase.blocks_of_clear hadv (Bool.not_eq_true' _ ▸ hnull) hblocked, ih hadv hp hclear⟩
  | many p ih =>
    obtain ⟨hnull, hap⟩ := Phrase.advancing_repeated hadv
    obtain ⟨hp, hapart⟩ := Bool.and_eq_true_iff.mp hp
    obtain ⟨hblocked, hrest⟩ := h.of_append
    obtain ⟨hclear, hresidues⟩ := hrest.of_append
    refine ⟨Phrase.blocks_of_clear hap hnull hblocked, fun u as hu => ?_⟩
    exact ih hap hp (.append_derives hu hadv hapart hresidues fun _ => hclear)
  | items p ih =>
    obtain ⟨hnull, hap⟩ := Phrase.advancing_repeated hadv
    obtain ⟨hp, hcomma⟩ := Bool.and_eq_true_iff.mp hp
    obtain ⟨hclear, hrest⟩ := (show Clear ([_] ++ (p.starts ++ p.goesOn)) v from h).of_append
    obtain ⟨hblocked, hclear'⟩ := hrest.of_append
    exact ⟨hclear, Phrase.blocks_of_clear hap hnull hblocked,
      ih hap hp hclear', fun t w ht => ih hap hp (.of_mark (m := .symbol .comma) ht hcomma)⟩
  | spanned p ih => exact ih (Bool.and_eq_true_iff.mp hadv).2 hp h
  | labelled l p ih => exact ih hadv hp h
  | rule n => exact h

/-- Where a construct ends, its right side does. -/
theorem Nonterminal.body_ends (n : Nonterminal α) {v : List Located} (h : Clear n.goesOn v) :
    n.body.Ends v :=
  n.body.ends_of_clear n.body_advancing n.body_predictive (h.covered n.body_goesOn)

end ReportTemplate.Syntax
