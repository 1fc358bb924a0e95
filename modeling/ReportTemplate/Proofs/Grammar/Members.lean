import ReportTemplate.Proofs.Grammar.Covers
import ReportTemplate.Proofs.Syntax.Calls

/-!
# ReportTemplate.Proofs.Grammar.Members — the classes and methods of a source

Every method in the tree of a source has a sentence of its own among the tokens, which its span covers,
and the names of classes and methods are identifiers.
-/

namespace ReportTemplate.Syntax

variable {α β : Type}

/-! ### Trees of classes -/

section

variable (N : Ident → Prop) (M : Method → Prop)

mutual

/-- The name of a class, its methods and the classes inside it are as told. -/
def Class.Holds : Class → Prop
  | .mk _ name members => N name ∧ Class.AllHold members

def Class.AllHold : List (Method ⊕ Class) → Prop
  | [] => True
  | .inl m :: members => M m ∧ Class.AllHold members
  | .inr c :: members => c.Holds ∧ Class.AllHold members

end

end

section

variable {N N' : Ident → Prop} {M M' : Method → Prop}

mutual

theorem Class.Holds.mono (hN : ∀ name, N name → N' name) (hM : ∀ m, M m → M' m) :
    ∀ c : Class, c.Holds N M → c.Holds N' M'
  | .mk _ name members, h => ⟨hN name h.1, Class.AllHold.mono hN hM members h.2⟩

theorem Class.AllHold.mono (hN : ∀ name, N name → N' name) (hM : ∀ m, M m → M' m) :
    ∀ members : List (Method ⊕ Class), Class.AllHold N M members → Class.AllHold N' M' members
  | [], _ => trivial
  | .inl m :: members, h => ⟨hM m h.1, Class.AllHold.mono hN hM members h.2⟩
  | .inr c :: members, h => ⟨Class.Holds.mono hN hM c h.1, Class.AllHold.mono hN hM members h.2⟩

end

theorem Class.AllHold.own {members : List (Method ⊕ Class)} (h : Class.AllHold N M members) :
    ∀ m ∈ members.filterMap Sum.getLeft?, M m := by
  induction members with
  | nil => exact nofun
  | cons x members ih =>
    cases x with
    | inl m => exact List.forall_mem_cons.mpr ⟨h.1, ih h.2⟩
    | inr c => exact ih h.2

mutual

theorem Class.Holds.method : ∀ c : Class, c.Holds N M → ∀ m ∈ c.allMethods, M m
  | .mk _ _ members, h =>
    List.forall_mem_append.mpr ⟨h.2.own, Class.AllHold.method members h.2⟩

theorem Class.AllHold.method : ∀ members : List (Method ⊕ Class), Class.AllHold N M members →
    ∀ m ∈ Class.nestedMethods members, M m
  | [], _ => nofun
  | .inl _ :: members, h => Class.AllHold.method members h.2
  | .inr c :: members, h =>
    List.forall_mem_append.mpr ⟨Class.Holds.method c h.1, Class.AllHold.method members h.2⟩

end

end

/-! ### Sentences inside sentences -/

/-- A tree of a phrase has its sentence among some tokens. -/
def Among (p : Phrase α) (u : List Located) (a : α) : Prop := ∃ v, v <:+: u ∧ Derives p v a

theorem Among.mono {p : Phrase α} {u w : List Located} {a : α} (h : Among p u a) (hw : u <:+: w) :
    Among p w a := by
  obtain ⟨v, hv, hderives⟩ := h
  exact ⟨v, hv.trans hw, hderives⟩

theorem Derives.before {p : Phrase α} {q : Phrase β} {u : List Located} {b : β}
    (h : Derives (p.before q) u b) : Among q u b := by
  obtain ⟨⟨a, b⟩, rfl, hseq⟩ := h.forms
  obtain ⟨v, w, rfl, -, hright⟩ := hseq.forms
  exact ⟨w, (List.suffix_append v w).isInfix, hright⟩

theorem Derives.after {p : Phrase α} {q : Phrase β} {u : List Located} {a : α}
    (h : Derives (p.after q) u a) : Among p u a := by
  obtain ⟨⟨a, b⟩, rfl, hseq⟩ := h.forms
  obtain ⟨v, w, rfl, hleft, -⟩ := hseq.forms
  exact ⟨v, (List.prefix_append v w).isInfix, hleft⟩

theorem Derives.between {p : Phrase α} {opening closing : Symbol} {u : List Located} {a : α}
    (h : Derives (p.between opening closing) u a) : Among p u a := by
  obtain ⟨v, hv, hinner⟩ := Derives.before h
  exact hinner.after.mono hv

/-- The name of a sentence of a name is an identifier. -/
def Named (u : List Located) (name : Ident) : Prop := ∃ t ∈ u, t.token = .ident name.text

theorem Derives.ident {u : List Located} {name : Ident} (h : Derives Grammar.ident u name) :
    Named u name := by
  obtain ⟨⟨text, span⟩, rfl, hspanned⟩ := h.forms
  obtain ⟨t, v, rfl, -, hname⟩ := hspanned.forms
  obtain ⟨t', htokens, htoken⟩ := hname.forms
  obtain ⟨rfl, rfl⟩ := List.cons.inj htokens
  exact ⟨t, List.mem_cons_self, htoken⟩

theorem Named.mono {u w : List Located} {name : Ident} (h : Named u name) (hw : u <:+: w) :
    Named w name := by
  obtain ⟨t, ht, htoken⟩ := h
  exact ⟨t, hw.subset ht, htoken⟩

/-! ### Methods -/

/-- The span of a method goes over its sentence, and so do the spans inside it; its name is an
identifier. -/
structure Method.Spelled (u : List Located) (m : Method) : Prop where
  whole : ∃ t v, u = t :: v ∧ m.span = cover t v
  spans : m.Spans (Covered u)
  name : Named u m.name

theorem Derives.spelled {u : List Located} {m : Method} (h : Derives Grammar.method u m) :
    m.Spelled u := by
  have hspans := spread_of_derives Grammar.spreads_method h (Covered u) fun _ hs => hs
  obtain ⟨⟨⟨isStatic, name, params, returns, body⟩, span⟩, rfl, hspanned⟩ := h.forms
  obtain ⟨t, v, rfl, rfl, hparts⟩ := hspanned.forms
  obtain ⟨u₁, u₂, hu, -, hparts⟩ := hparts.forms
  obtain ⟨u₃, u₄, rfl, hname, -⟩ := hparts.forms
  refine ⟨⟨t, v, rfl, rfl⟩, hspans, hname.ident.mono ?_⟩
  rw [hu]
  exact List.infix_append' u₁ u₃ u₄

/-- A method that has a sentence among some tokens. -/
def Method.Among (u : List Located) (m : Method) : Prop := ∃ v, v <:+: u ∧ m.Spelled v

/-! ### Classes -/

/-- A class with the names and methods of the classes inside it stands among some tokens. -/
def Class.Among (u : List Located) (c : Class) : Prop := c.Holds (Named u) (Method.Among u)

theorem Class.Among.mono {u w : List Located} {c : Class} (h : c.Among u) (hw : u <:+: w) :
    c.Among w := by
  refine Class.Holds.mono (fun _ hname => hname.mono hw) ?_ c h
  rintro m ⟨v, hv, hspelled⟩
  exact ⟨v, hv.trans hw, hspelled⟩

/-- The members of a class have their sentences behind one another. -/
def Grammar.members : Phrase (List (Method ⊕ Class)) :=
  .many (.either (.map Sum.inl Grammar.method) (.map Sum.inr (.rule .classDecl)))

mutual

theorem Class.among_of_derives : ∀ (c : Class) {u : List Located},
    Derives (.rule .classDecl) u c → c.Among u
  | .mk span name ms, u, h => by
    obtain ⟨⟨⟨name', ms'⟩, span'⟩, hclass, hspanned⟩ := h.forms.forms
    obtain ⟨rfl, rfl, rfl⟩ := Class.mk.inj hclass
    obtain ⟨t, v, rfl, -, hkeyword⟩ := hspanned.forms
    obtain ⟨w, hw, hseq⟩ := Derives.before hkeyword
    obtain ⟨u₁, u₂, rfl, hname, hbetween⟩ := hseq.forms
    obtain ⟨u₃, hu₃, hmembers⟩ := Derives.between hbetween
    refine ⟨hname.ident.mono ((List.prefix_append u₁ u₂).isInfix.trans hw), ?_⟩
    exact Class.allAmong_of_derives ms hmembers
      (hu₃.trans ((List.suffix_append u₁ u₂).isInfix.trans hw))

theorem Class.allAmong_of_derives : ∀ (ms : List (Method ⊕ Class)) {u w : List Located},
    Derives Grammar.members u ms → u <:+: w → Class.AllHold (Named w) (Method.Among w) ms
  | [], _, _, _, _ => trivial
  | .inl m :: ms, _, w, h, hw => by
    obtain ⟨u₁, u₂, rfl, hhead, htail⟩ := h.forms
    refine ⟨?_, Class.allAmong_of_derives ms htail ((List.suffix_append u₁ u₂).isInfix.trans hw)⟩
    rcases hhead.forms with hmethod | hclass
    · obtain ⟨m', hm', hmethod⟩ := hmethod.forms
      obtain rfl := Sum.inl.inj hm'
      exact ⟨u₁, (List.prefix_append u₁ u₂).isInfix.trans hw, hmethod.spelled⟩
    · obtain ⟨_, hc, -⟩ := hclass.forms
      cases hc
  | .inr c :: ms, _, w, h, hw => by
    obtain ⟨u₁, u₂, rfl, hhead, htail⟩ := h.forms
    refine ⟨?_, Class.allAmong_of_derives ms htail ((List.suffix_append u₁ u₂).isInfix.trans hw)⟩
    rcases hhead.forms with hmethod | hclass
    · obtain ⟨_, hm, -⟩ := hmethod.forms
      cases hm
    · obtain ⟨c', hc', hclass⟩ := hclass.forms
      obtain rfl := Sum.inr.inj hc'
      exact (Class.among_of_derives c hclass).mono ((List.prefix_append u₁ u₂).isInfix.trans hw)

end

/-- The classes of a source stand among its tokens. -/
theorem File.among_of_derives {u : List Located} {f : File} (h : Derives Grammar.file u f) :
    ∀ c ∈ f.classes, c.Among u := by
  obtain ⟨cs, rfl, hmany⟩ := h.forms
  clear h
  induction cs generalizing u with
  | nil => exact nofun
  | cons c cs ih =>
    obtain ⟨v, w, rfl, hhead, htail⟩ := hmany.forms
    refine List.forall_mem_cons.mpr ⟨?_, fun c' hc' => ?_⟩
    · exact (Class.among_of_derives c hhead).mono (List.prefix_append v w).isInfix
    · exact (ih htail c' hc').mono (List.suffix_append v w).isInfix

end ReportTemplate.Syntax
