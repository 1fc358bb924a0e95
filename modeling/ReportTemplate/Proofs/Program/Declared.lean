import ReportTemplate.Proofs.Program.Signatures

/-!
# ReportTemplate.Proofs.Program.Declared — what a source declares

When no error is reported, the declared methods are the methods of the source in the order of its
classes, each with the signature that it is written with, and each is listed by the class it stands in.
-/

namespace ReportTemplate.Program

/-- A signature says what the declaration of its method says. -/
structure Pending.Faithful (m : Pending) : Prop where
  name : m.signature.name = m.declaration.name.text
  isStatic : m.signature.isStatic = m.declaration.isStatic
  params : m.signature.params.map Prod.fst = m.declaration.params.map fun p => p.name.text

theorem Pending.Faithful.length_params {m : Pending} (hm : m.Faithful) :
    m.signature.params.length = m.declaration.params.length := by
  have h := congrArg List.length hm.params
  rwa [List.length_map, List.length_map] at h

/-- Every declared method has a faithful signature, and its class lists it. -/
def Declarations.Listed (d : Declarations) : Prop :=
  ∀ (i : Nat) (m : Pending), d.methods[i]? = some m →
    m.Faithful ∧ ∃ t : TypeInfo, d.types[m.owner]? = some t ∧ i ∈ t.methods

/-- A computation that declares and reports no error. -/
def Declares {α : Type} (x : Declare α) (Q : Declarations → α → Declarations → Prop) : Prop :=
  ∀ d, Clean (x d).2.found → Clean d.found ∧ Q d (x d).1 (x d).2

namespace Declares

variable {α β : Type} {x : Declare α} {Q : Declarations → α → Declarations → Prop}

theorem mono {Q' : Declarations → α → Declarations → Prop} (h : Declares x Q)
    (hQ : ∀ d a e, Q d a e → Q' d a e) : Declares x Q' := fun d hclean =>
  ⟨(h d hclean).1, hQ _ _ _ (h d hclean).2⟩

theorem pure (a : α) : Declares (Pure.pure a) fun d b e => b = a ∧ e = d :=
  fun _ hclean => ⟨hclean, rfl, rfl⟩

theorem get : Declares (MonadState.get : Declare Declarations) fun d b e => b = d ∧ e = d :=
  fun _ hclean => ⟨hclean, rfl, rfl⟩

theorem bind {f : α → Declare β} {R : α → Declarations → β → Declarations → Prop}
    (hx : Declares x Q) (hf : ∀ a, Declares (f a) (R a)) :
    Declares (x >>= f) fun d b e => ∃ a d', Q d a d' ∧ R a d' b e := by
  intro d hclean
  obtain ⟨hmid, hlater⟩ := hf (x d).1 (x d).2 hclean
  obtain ⟨hd, hfirst⟩ := hx d hmid
  exact ⟨hd, _, _, hfirst, hlater⟩

end Declares

namespace Declare

theorem declares_report {code : Diagnostic.Code} (hcode : code.severity = .error)
    (message : String) (span : Span) (Q : Declarations → Unit → Declarations → Prop) :
    Declares (report code message span) Q := by
  intro d hclean
  have hd : code.severity = .warning := (clean_append.mp hclean).2 _ List.mem_cons_self
  rw [hcode] at hd
  cases hd

/-- Whatever comes behind an error, the computation as a whole reports it. -/
theorem declares_refused {α : Type} {code : Diagnostic.Code} (hcode : code.severity = .error)
    (message : String) (span : Span) {x : Unit → Declare α}
    {R : Declarations → α → Declarations → Prop} (hx : ∀ u, Declares (x u) R)
    (Q : Declarations → α → Declarations → Prop) :
    Declares (report code message span >>= x) Q := by
  refine ((declares_report hcode message span fun _ _ _ => False).bind hx).mono ?_
  rintro d a e ⟨_, _, h, -⟩
  exact h.elim

variable (refs : ReferenceSet)

/-! ### Signatures -/

theorem params_names (ps : List Syntax.Param) : ∀ (seen : List String) (d : Declarations),
    (params refs seen ps d).1.map Prod.fst = ps.map fun p => p.name.text := by
  induction ps with
  | nil => exact fun _ _ => rfl
  | cons p ps ih =>
    intro seen d
    unfold params
    split
    · exact congrArg (p.name.text :: ·) (ih _ _)
    · exact congrArg (p.name.text :: ·) (ih _ _)

theorem faithful_signature (m : Syntax.Method) (owner : TypeId) (d : Declarations) :
    (Pending.mk (signature refs m d).1 owner m).Faithful := by
  have hparams := params_names refs m.params [] d
  unfold signature
  split
  · exact ⟨rfl, rfl, hparams⟩
  · exact ⟨rfl, rfl, hparams⟩

/-! ### Classes -/

/-- The methods `new` of the class `owner` have been added, and no class. -/
structure Added (owner : TypeId) (ms : List Syntax.Method) (d : Declarations) (ids : List MethodId)
    (e : Declarations) (new : List Pending) : Prop where
  types : e.types = d.types
  methods : e.methods = d.methods ++ new
  declarations : new.map Pending.declaration = ms
  ids : ids = List.range' d.methods.length new.length
  faithful : ∀ m ∈ new, m.owner = owner ∧ m.Faithful

theorem declares_methods (owner : TypeId) (path : String) (ms : List Syntax.Method)
    (seen : List String) : Declares (methods refs owner path seen ms) fun d ids e =>
      ∃ new, Added owner ms d ids e new := by
  intro d hclean
  obtain ⟨hd, hfresh, hsignatures⟩ := fresh_of_clean refs hclean
  have hnames : (ms.map (pendingOf refs owner)).map Pending.declaration = ms := by
    simp [pendingOf, Function.comp_def]
  have hnew : ∀ m ∈ ms.map (pendingOf refs owner), m.owner = owner ∧ m.Faithful := by
    intro m hm
    obtain ⟨m, -, rfl⟩ := List.mem_map.mp hm
    exact ⟨rfl, faithful_signature refs m owner {}⟩
  rw [methods_of_fresh refs owner path hfresh hsignatures]
  exact ⟨hd, _, rfl, rfl, hnames, by rw [List.length_map], hnew⟩

/-- The methods `ms` have been added with the classes that list them. -/
def Grows (ms : List Syntax.Method) (d e : Declarations) : Prop :=
  (∃ new, e.methods = d.methods ++ new ∧ new.map Pending.declaration = ms) ∧ (d.Listed → e.Listed)

theorem Grows.refl (d : Declarations) : Grows [] d d :=
  ⟨⟨[], (List.append_nil _).symm, rfl⟩, id⟩

theorem Grows.trans {ms ns : List Syntax.Method} {d e f : Declarations} (h₁ : Grows ms d e)
    (h₂ : Grows ns e f) : Grows (ms ++ ns) d f := by
  obtain ⟨⟨new₁, hm₁, rfl⟩, hl₁⟩ := h₁
  obtain ⟨⟨new₂, hm₂, rfl⟩, hl₂⟩ := h₂
  refine ⟨⟨new₁ ++ new₂, ?_, List.map_append⟩, fun hd => hl₂ (hl₁ hd)⟩
  rw [hm₂, hm₁, List.append_assoc]

/-- A class that lists the methods added for it. -/
theorem Grows.of_added {ms : List Syntax.Method} {d e f : Declarations} {ids : List MethodId}
    {new : List Pending} {t : TypeInfo} (h : Added d.types.length ms d ids e new)
    (htypes : f.types = e.types ++ [t]) (hmethods : f.methods = e.methods) (ht : t.methods = ids) :
    Grows ms d f := by
  refine ⟨⟨new, hmethods.trans h.methods, h.declarations⟩, fun hd i m hm => ?_⟩
  rw [hmethods, h.methods] at hm
  rw [htypes, h.types]
  rcases Nat.lt_or_ge i d.methods.length with hi | hi
  · rw [List.getElem?_append_left hi] at hm
    obtain ⟨hfaithful, t', ht', hmem⟩ := hd i m hm
    refine ⟨hfaithful, t', ?_, hmem⟩
    rw [List.getElem?_append_left (List.getElem?_eq_some_iff.mp ht').1]
    exact ht'
  · rw [List.getElem?_append_right hi] at hm
    obtain ⟨howner, hfaithful⟩ := h.faithful m (List.mem_of_getElem? hm)
    refine ⟨hfaithful, t, ?_, ?_⟩
    · rw [howner, List.getElem?_concat_length]
    · have hlt := (List.getElem?_eq_some_iff.mp hm).1
      rw [ht, h.ids, List.mem_range'_1]
      omega

mutual

theorem declares_classDecl : ∀ (parent : Option String) (c : Syntax.Class),
    Declares (classDecl refs parent c) fun d _ e => Grows c.allMethods d e
  | parent, .mk span name members => by
    have hadd (t : TypeInfo) : Declares (modify fun d => { d with types := d.types ++ [t] })
        fun d _ e => e.types = d.types ++ [t] ∧ e.methods = d.methods :=
      fun d hclean => ⟨hclean, rfl, rfl⟩
    refine (Declares.get.bind fun d => (declares_methods refs d.types.length _
      (members.filterMap Sum.getLeft?) []).bind fun ids =>
        (hadd ⟨name.text, _, parent.isSome, ids⟩).bind fun _ => declares_nested _ [] members).mono ?_
    rintro d _ e ⟨_, _, ⟨rfl, rfl⟩, ids, d₁, ⟨new, hnew⟩, _, d₂, ⟨htypes, hmethods⟩, hnested⟩
    exact (Grows.of_added hnew htypes hmethods rfl).trans hnested

theorem declares_nested : ∀ (path : String) (seen : List String)
    (members : List (Syntax.Method ⊕ Syntax.Class)), Declares (nested refs path seen members)
      fun d _ e => Grows (Syntax.Class.nestedMethods members) d e
  | _, _, [] => by
    refine (Declares.pure ()).mono ?_
    rintro d _ e ⟨-, rfl⟩
    exact .refl e
  | path, seen, .inl _ :: members => declares_nested path seen members
  | path, seen, .inr c :: members => by
    have hrest := (declares_classDecl (some path) c).bind fun _ =>
      declares_nested path (c.name.text :: seen) members
    unfold nested
    split
    · exact declares_refused rfl _ c.name.span (fun _ => hrest) _
    · refine hrest.mono ?_
      rintro d _ e ⟨_, _, h₁, h₂⟩
      exact h₁.trans h₂

end

theorem declares_classes (cs : List Syntax.Class) : ∀ seen : List String,
    Declares (classes refs seen cs) fun d _ e => Grows (cs.flatMap Syntax.Class.allMethods) d e := by
  induction cs with
  | nil =>
    intro seen
    refine (Declares.pure ()).mono ?_
    rintro d _ e ⟨-, rfl⟩
    exact .refl e
  | cons c cs ih =>
    intro seen
    have hrest := (declares_classDecl refs none c).bind fun _ => ih (c.name.text :: seen)
    unfold classes
    split
    · exact declares_refused rfl _ c.name.span (fun _ => hrest) _
    · refine hrest.mono ?_
      rintro d _ e ⟨_, _, h₁, h₂⟩
      exact h₁.trans h₂

end Declare

/-- **Declarations**: without an error, the declared methods are those of the source, their signatures
say what their declarations say, and their classes list them. -/
theorem declarations_clean {refs : ReferenceSet} {file : Syntax.File}
    (h : Clean (declarations refs file).found) :
    (declarations refs file).methods.map Pending.declaration = file.methods ∧
      (declarations refs file).Listed := by
  obtain ⟨-, ⟨new, hmethods, hnew⟩, hlisted⟩ := Declare.declares_classes refs file.classes [] {} h
  have hnone : ({} : Declarations).Listed := fun i m hm => by simp at hm
  refine ⟨?_, hlisted hnone⟩
  have hall : (declarations refs file).methods = new := hmethods.trans (List.nil_append new)
  rw [hall, hnew]
  rfl

end ReportTemplate.Program
