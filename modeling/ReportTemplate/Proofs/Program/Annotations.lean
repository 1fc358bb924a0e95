import ReportTemplate.Proofs.Machine.Untyped
import ReportTemplate.Proofs.Program.Declared

/-!
# ReportTemplate.Proofs.Program.Annotations — what a source declares apart from types

The types that parameters and results are annotated with are reported when they are unknown, and stand in
the signatures of methods.  Everything else that a source declares does not depend on them.
-/

namespace ReportTemplate

/-! ### Sources without annotations -/

namespace Syntax

/-- A parameter of type `any`. -/
def Param.untyped (p : Param) : Param := { p with type := .named p.name.span "any" }

/-- A method whose parameters have the type `any`, without the type of its result. -/
def Method.untyped (m : Method) : Method :=
  { m with params := m.params.map Param.untyped, returns := none }

mutual

def Class.untyped : Class → Class
  | .mk span name members => .mk span name (Class.untypedAll members)

def Class.untypedAll : List (Method ⊕ Class) → List (Method ⊕ Class)
  | [] => []
  | .inl m :: members => .inl m.untyped :: Class.untypedAll members
  | .inr c :: members => .inr c.untyped :: Class.untypedAll members

end

/-- A source with no annotations but `any`. -/
def File.untyped (f : File) : File := ⟨f.classes.map Class.untyped⟩

theorem Method.untyped_untyped (m : Method) : m.untyped.untyped = m.untyped := by
  have hparams : (m.params.map Param.untyped).map Param.untyped = m.params.map Param.untyped :=
    List.map_map ..
  unfold untyped
  rw [hparams]

theorem Class.name_untyped (c : Class) : c.untyped.name = c.name := by
  cases c
  rfl

theorem Class.own_untypedAll (members : List (Method ⊕ Class)) :
    (Class.untypedAll members).filterMap Sum.getLeft? =
      (members.filterMap Sum.getLeft?).map Method.untyped := by
  induction members with
  | nil => rfl
  | cons x members ih =>
    cases x with
    | inl m => exact congrArg (m.untyped :: ·) ih
    | inr c => exact ih

end Syntax

theorem Signature.untyped_eq_of_names {s s' : Signature} (hname : s.name = s'.name)
    (hstatic : s.isStatic = s'.isStatic)
    (hparams : s.params.map Prod.fst = s'.params.map Prod.fst) : s.untyped = s'.untyped := by
  have hany (ps : List (String × Ty)) :
      ps.map (fun p => (p.1, Ty.any)) = (ps.map Prod.fst).map fun name => (name, Ty.any) := by
    rw [List.map_map]
    rfl
  unfold Signature.untyped
  rw [hname, hstatic, hany, hparams, ← hany]

namespace Program

def Pending.untyped (m : Pending) : Pending := ⟨m.signature.untyped, m.owner, m.declaration.untyped⟩

/-- What has been declared apart from types. -/
def Declarations.untyped (d : Declarations) : List TypeInfo × List Pending :=
  (d.types, d.methods.map Pending.untyped)

theorem Declarations.untyped_addMethod {d e : Declarations} (h : d.untyped = e.untyped)
    {m n : Pending} (hmn : m.untyped = n.untyped) :
    Declarations.untyped { d with methods := d.methods ++ [m] } =
      Declarations.untyped { e with methods := e.methods ++ [n] } := by
  obtain ⟨htypes, hmethods⟩ := Prod.mk.inj h
  unfold untyped
  rw [htypes, List.map_append, List.map_append, hmethods, List.map_singleton, List.map_singleton,
    hmn]

theorem Declarations.untyped_addType {d e : Declarations} (h : d.untyped = e.untyped)
    (t : TypeInfo) :
    Declarations.untyped { d with types := d.types ++ [t] } =
      Declarations.untyped { e with types := e.types ++ [t] } := by
  obtain ⟨htypes, hmethods⟩ := Prod.mk.inj h
  unfold untyped
  rw [htypes, hmethods]

/-- A computation that declares nothing apart from types. -/
def DeclaresNothing {α : Type} (x : Declare α) : Prop := ∀ d, (x d).2.untyped = d.untyped

/-- Two computations that declare the same apart from types, and have related results. -/
def DeclareAlike {α β : Type} (R : α → β → Prop) (x : Declare α) (y : Declare β) : Prop :=
  ∀ d e, d.untyped = e.untyped → R (x d).1 (y e).1 ∧ (x d).2.untyped = (y e).2.untyped

namespace DeclaresNothing

variable {α β : Type} {x : Declare α}

theorem pure (a : α) : DeclaresNothing (Pure.pure a) := fun _ => rfl

theorem bind {f : α → Declare β} (hx : DeclaresNothing x) (hf : ∀ a, DeclaresNothing (f a)) :
    DeclaresNothing (x >>= f) := fun d => (hf _ _).trans (hx d)

theorem report (code : Diagnostic.Code) (message : String) (span : Span) :
    DeclaresNothing (Declare.report code message span) := fun _ => rfl

end DeclaresNothing

namespace DeclareAlike

variable {α β γ δ : Type} {R : α → β → Prop} {x x' : Declare α} {y y' : Declare β}

theorem pure {a : α} {b : β} (h : R a b) : DeclareAlike R (Pure.pure a) (Pure.pure b) :=
  fun _ _ hde => ⟨h, hde⟩

theorem bind {Q : γ → δ → Prop} {f : α → Declare γ} {g : β → Declare δ} (hx : DeclareAlike R x y)
    (hf : ∀ a b, R a b → DeclareAlike Q (f a) (g b)) : DeclareAlike Q (x >>= f) (y >>= g) := by
  intro d e hde
  obtain ⟨hR, hmid⟩ := hx d e hde
  exact hf _ _ hR _ _ hmid

theorem of_nothing (hx : DeclaresNothing x) (hy : DeclaresNothing y) :
    DeclareAlike (fun _ _ => True) x y :=
  fun d e hde => ⟨trivial, (hx d).trans (hde.trans (hy e).symm)⟩

theorem get : DeclareAlike (fun d e : Declarations => d.untyped = e.untyped) MonadState.get
    MonadState.get := fun _ _ hde => ⟨hde, hde⟩

theorem change {f g : Declarations → Declarations}
    (h : ∀ d e, d.untyped = e.untyped → (f d).untyped = (g e).untyped) :
    DeclareAlike Eq (modify f : Declare Unit) (modify g) :=
  fun _ _ hde => ⟨rfl, h _ _ hde⟩

theorem ite {c : Prop} [Decidable c] (h : DeclareAlike R x y) (h' : DeclareAlike R x' y') :
    DeclareAlike R (if c then x else x') (if c then y else y') := by
  split
  · exact h
  · exact h'

/-- Something is reported in front. -/
theorem reported (code : Diagnostic.Code) (message : String) (span : Span)
    (h : DeclareAlike R x y) :
    DeclareAlike R (Declare.report code message span >>= fun _ => x)
      (Declare.report code message span >>= fun _ => y) :=
  fun _ _ hde => h _ _ hde

end DeclareAlike

namespace Declare

variable (refs : ReferenceSet)

/-! ### Signatures -/

mutual

theorem declaresNothing_type : ∀ t : Syntax.TypeExpr, DeclaresNothing (type refs t)
  | .named span name => by
    unfold type
    split
    · split
      · exact .pure _
      · exact (DeclaresNothing.report _ _ _).bind fun _ => .pure _
    · exact (DeclaresNothing.report _ _ _).bind fun _ => .pure _
  | .callback span params => by
    have hparams := (declaresNothing_types params).bind fun ps => .pure (Ty.callback ps)
    unfold type
    split
    · exact (DeclaresNothing.report _ _ _).bind fun _ => hparams
    · exact hparams

theorem declaresNothing_types : ∀ ts : List Syntax.TypeExpr, DeclaresNothing (types refs ts)
  | [] => .pure _
  | t :: ts =>
    (declaresNothing_type t).bind fun _ => (declaresNothing_types ts).bind fun _ => .pure _

end

theorem alike_params (ps : List Syntax.Param) : ∀ seen : List String,
    DeclareAlike (fun rs rs' => rs.map Prod.fst = rs'.map Prod.fst) (params refs seen ps)
      (params refs seen (ps.map Syntax.Param.untyped)) := by
  induction ps with
  | nil => exact fun _ => .pure rfl
  | cons p ps ih =>
    intro seen
    have htype := DeclareAlike.of_nothing (declaresNothing_type refs p.type)
      (declaresNothing_type refs p.untyped.type)
    have hrest := htype.bind fun ty ty' _ => (ih (p.name.text :: seen)).bind fun rs rs' hrs =>
      DeclareAlike.pure (a := (p.name.text, ty) :: rs) (b := (p.name.text, ty') :: rs')
        (R := fun rs rs' => rs.map Prod.fst = rs'.map Prod.fst)
        (congrArg (p.name.text :: ·) hrs)
    exact .ite (.reported _ _ _ hrest) hrest

theorem alike_signature (m : Syntax.Method) :
    DeclareAlike (fun s s' => s.untyped = s'.untyped) (signature refs m)
      (signature refs m.untyped) := by
  refine (alike_params refs m.params []).bind fun ps ps' hps => ?_
  have hdone (ty : Ty) : DeclareAlike (fun s s' : Signature => s.untyped = s'.untyped)
      (Pure.pure ⟨m.name.text, m.isStatic, ps, ty⟩ : Declare Signature)
      (Pure.pure ⟨m.name.text, m.isStatic, ps', .void⟩) :=
    .pure (Signature.untyped_eq_of_names rfl rfl hps)
  show DeclareAlike _ _ ((Pure.pure Ty.void : Declare Ty) >>= fun returns =>
    (Pure.pure (Signature.mk m.name.text m.isStatic ps' returns) : Declare Signature))
  split
  · exact (DeclareAlike.of_nothing (declaresNothing_type refs _) (.pure Ty.void)).bind
      fun ty _ _ => hdone ty
  · exact hdone .void

/-! ### Classes -/

theorem alike_methods (owner : TypeId) (path : String) (ms : List Syntax.Method) :
    ∀ seen : List String, DeclareAlike Eq (methods refs owner path seen ms)
      (methods refs owner path seen (ms.map Syntax.Method.untyped)) := by
  induction ms with
  | nil => exact fun _ => .pure rfl
  | cons m ms ih =>
    intro seen
    refine .ite (.reported _ _ _ (ih seen)) ?_
    refine (alike_signature refs m).bind fun s s' hs => DeclareAlike.get.bind fun d d' hd => ?_
    have hid : d.methods.length = d'.methods.length := by
      simpa [Declarations.untyped] using congrArg (fun u => u.2.length) hd
    have hpending : Pending.untyped ⟨s, owner, m⟩ = Pending.untyped ⟨s', owner, m.untyped⟩ := by
      unfold Pending.untyped
      rw [hs, Syntax.Method.untyped_untyped]
    have hadd : DeclareAlike Eq
        (modify fun d => { d with methods := d.methods ++ [⟨s, owner, m⟩] })
        (modify fun d => { d with methods := d.methods ++ [⟨s', owner, m.untyped⟩] }) :=
      .change fun _ _ hd => Declarations.untyped_addMethod hd hpending
    refine hadd.bind fun _ _ _ => (ih (m.name.text :: seen)).bind fun ids ids' hids => .pure ?_
    rw [hid, hids]

mutual

theorem alike_classDecl (parent : Option String) : ∀ c : Syntax.Class,
    DeclareAlike Eq (classDecl refs parent c) (classDecl refs parent c.untyped)
  | .mk span name members => by
    refine DeclareAlike.get.bind fun d d' hd => ?_
    have howner : d.types.length = d'.types.length := congrArg (fun u => u.1.length) hd
    have hmethods (path : String) := alike_methods refs d.types.length path
      (members.filterMap Sum.getLeft?) []
    rw [← Syntax.Class.own_untypedAll] at hmethods
    rw [← howner]
    refine (hmethods _).bind fun ids ids' hids => ?_
    have hadd (t : TypeInfo) : DeclareAlike Eq
        (modify fun d => { d with types := d.types ++ [t] })
        (modify fun d => { d with types := d.types ++ [t] }) :=
      .change fun _ _ hd => Declarations.untyped_addType hd t
    rw [← hids]
    exact (hadd _).bind fun _ _ _ => alike_nested _ [] members

theorem alike_nested (path : String) : ∀ (seen : List String)
    (members : List (Syntax.Method ⊕ Syntax.Class)), DeclareAlike Eq (nested refs path seen members)
      (nested refs path seen (Syntax.Class.untypedAll members))
  | _, [] => .pure rfl
  | seen, .inl _ :: members => alike_nested path seen members
  | seen, .inr c :: members => by
    have hrest := (alike_classDecl (some path) c).bind fun _ _ _ =>
      alike_nested path (c.name.text :: seen) members
    rw [Syntax.Class.untypedAll, nested, nested, Syntax.Class.name_untyped]
    exact .ite (.reported _ _ _ hrest) hrest

end

theorem alike_classes (cs : List Syntax.Class) : ∀ seen : List String,
    DeclareAlike Eq (classes refs seen cs) (classes refs seen (cs.map Syntax.Class.untyped)) := by
  induction cs with
  | nil => exact fun _ => .pure rfl
  | cons c cs ih =>
    intro seen
    have hrest := (alike_classDecl refs none c).bind fun _ _ _ => ih (c.name.text :: seen)
    rw [List.map_cons]
    unfold classes
    rw [Syntax.Class.name_untyped]
    exact .ite (.reported _ _ _ hrest) hrest

end Declare

theorem declarations_untyped (refs : ReferenceSet) (file : Syntax.File) :
    (declarations refs file.untyped).untyped = (declarations refs file).untyped :=
  (Declare.alike_classes refs file.classes [] {} {} rfl).2.symm

/-- **Annotations** do not show in what is declared, apart from types. -/
theorem declarations_untyped_eq (refs : ReferenceSet) {f g : Syntax.File}
    (h : f.untyped = g.untyped) :
    (declarations refs f).untyped = (declarations refs g).untyped := by
  rw [← declarations_untyped, h, declarations_untyped]

end Program

end ReportTemplate
