import ReportTemplate.Proofs.Program.Signatures
import ReportTemplate.Proofs.Syntax.Pruned

/-!
# ReportTemplate.Proofs.Program.Pruned — what a pruned source declares

No body is looked at while a source is declared.  So a pruned source declares what the source declares, with
pruned bodies.
-/

namespace ReportTemplate.Program

/-- A declared method with a pruned body. -/
def Pending.pruned (m : Pending) : Pending := { m with declaration := m.declaration.pruned }

def Declarations.pruned (d : Declarations) : Declarations :=
  { d with methods := d.methods.map Pending.pruned }

theorem Declarations.findMethod?_pruned (d : Declarations) (owner : TypeId) (name : String) :
    d.pruned.findMethod? owner name = d.findMethod? owner name := by
  unfold findMethod? pruned
  rw [List.findIdx?_map]
  rfl

theorem Declarations.getElem?_pruned (d : Declarations) (id : MethodId) :
    d.pruned.methods[id]? = (d.methods[id]?).map Pending.pruned := List.getElem?_map ..

/-- The second computation does on pruned declarations what the first does. -/
def Prunes {α : Type} (x y : Declare α) : Prop := ∀ d, y d.pruned = ((x d).1, (x d).2.pruned)

namespace Prunes

variable {α β : Type} {x y x' y' : Declare α}

theorem pure (a : α) : Prunes (Pure.pure a) (Pure.pure a) := fun _ => rfl

theorem bind {f g : α → Declare β} (hx : Prunes x y) (hf : ∀ a, Prunes (f a) (g a)) :
    Prunes (x >>= f) (y >>= g) := by
  intro d
  show g (y d.pruned).1 (y d.pruned).2 = _
  rw [hx d]
  exact hf (x d).1 (x d).2

theorem get_bind {f g : Declarations → Declare β} (hf : ∀ d, Prunes (f d) (g d.pruned)) :
    Prunes (MonadState.get >>= f) (MonadState.get >>= g) := fun d => hf d d

theorem change {f g : Declarations → Declarations} (h : ∀ d, g d.pruned = (f d).pruned) :
    Prunes (modify f : Declare Unit) (modify g) := fun d => congrArg (Prod.mk ()) (h d)

theorem report (code : Diagnostic.Code) (message : String) (span : Span) :
    Prunes (Declare.report code message span) (Declare.report code message span) := fun _ => rfl

/-- What may be reported first. -/
theorem reportIf {c : Prop} [Decidable c] (code : Diagnostic.Code) (message : String) (span : Span)
    (h : Prunes x y) :
    Prunes (do
      if c then Declare.report code message span
      x) (do
      if c then Declare.report code message span
      y) := by
  split
  · exact (report code message span).bind fun _ => h
  · exact h

end Prunes

namespace Declare

variable (refs : ReferenceSet)

theorem prunes_signature (m : Syntax.Method) :
    Prunes (signature refs m) (signature refs m.pruned) := by
  intro d
  show signature refs m d.pruned = _
  rw [signature_eq, signature_eq]
  rfl

theorem prunes_methods (owner : TypeId) (path : String) (ms : List Syntax.Method) :
    ∀ seen : List String, Prunes (methods refs owner path seen ms)
      (methods refs owner path seen (ms.map Syntax.Method.pruned)) := by
  induction ms with
  | nil => exact fun _ => .pure _
  | cons m ms ih =>
    intro seen
    have hadd (s : Signature) : Prunes
        (modify fun d => { d with methods := d.methods ++ [⟨s, owner, m⟩] })
        (modify fun d => { d with methods := d.methods ++ [⟨s, owner, m.pruned⟩] }) := by
      refine .change fun d => ?_
      simp [Declarations.pruned, Pending.pruned]
    rw [List.map_cons, methods, methods]
    by_cases hseen : seen.contains m.name.text = true
    · rw [if_pos hseen, if_pos (show seen.contains m.pruned.name.text = true from hseen)]
      exact (Prunes.report _ _ _).bind fun _ => ih seen
    · rw [if_neg hseen, if_neg (show ¬ seen.contains m.pruned.name.text = true from hseen)]
      refine (prunes_signature refs m).bind fun s => .get_bind fun d => ?_
      have hlength : d.pruned.methods.length = d.methods.length := List.length_map ..
      rw [hlength]
      exact (hadd s).bind fun _ => (ih _).bind fun _ => .pure _

mutual

theorem prunes_classDecl : ∀ (parent : Option String) (c : Syntax.Class),
    Prunes (classDecl refs parent c) (classDecl refs parent c.pruned)
  | parent, .mk span name members => by
    have hadd (t : TypeInfo) : Prunes (modify fun d => { d with types := d.types ++ [t] })
        (modify fun d => { d with types := d.types ++ [t] }) := .change fun _ => rfl
    refine .get_bind fun d => ?_
    have hmethods (path : String) :=
      prunes_methods refs d.types.length path (members.filterMap Sum.getLeft?) []
    rw [← Syntax.Class.own_prunedAll] at hmethods
    exact (hmethods _).bind fun ids => (hadd _).bind fun _ => prunes_nested _ [] members

theorem prunes_nested : ∀ (path : String) (seen : List String)
    (members : List (Syntax.Method ⊕ Syntax.Class)), Prunes (nested refs path seen members)
      (nested refs path seen (Syntax.Class.prunedAll members))
  | _, _, [] => .pure ()
  | path, seen, .inl _ :: members => prunes_nested path seen members
  | path, seen, .inr c :: members => by
    rw [Syntax.Class.prunedAll, nested, nested, Syntax.Class.name_pruned]
    exact .reportIf _ _ _ ((prunes_classDecl (some path) c).bind fun _ =>
      prunes_nested path (c.name.text :: seen) members)

end

theorem prunes_classes (cs : List Syntax.Class) : ∀ seen : List String,
    Prunes (classes refs seen cs) (classes refs seen (cs.map Syntax.Class.pruned)) := by
  induction cs with
  | nil => exact fun _ => .pure ()
  | cons c cs ih =>
    intro seen
    rw [List.map_cons, classes, classes, Syntax.Class.name_pruned]
    exact .reportIf _ _ _ ((prunes_classDecl refs none c).bind fun _ => ih _)

end Declare

/-- A pruned source declares what the source declares, with pruned bodies. -/
theorem declarations_pruned (refs : ReferenceSet) (file : Syntax.File) :
    declarations refs file.pruned = (declarations refs file).pruned :=
  congrArg Prod.snd (Declare.prunes_classes refs file.classes [] {})

end ReportTemplate.Program
