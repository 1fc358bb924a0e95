import ReportTemplate.Proofs.Program.Clears
import ReportTemplate.Proofs.Program.Places
import ReportTemplate.Proofs.Syntax.Calls
import ReportTemplate.Proofs.Syntax.Elements
import ReportTemplate.Proofs.Syntax.Occurrences

/-!
# ReportTemplate.Proofs.Program.Signatures — what the methods of a class bring into the declarations

What a signature is, and what is reported about it, does not depend on what has been declared before.  So
the methods of a class add those that come first of their name, in their order, and nothing is reported
exactly if their names are different and nothing is reported about any signature.  All that is reported
are errors.
-/

namespace ReportTemplate.Program

namespace Declare

variable (refs : ReferenceSet)

/-! ### Signatures -/

/-- All that is reported are errors. -/
def Errors (ds : List Diagnostic) : Prop := ∀ d ∈ ds, d.severity = .error

theorem Errors.eq_nil {ds : List Diagnostic} (h : Errors ds) (hclean : Clean ds) : ds = [] := by
  cases ds with
  | nil => rfl
  | cons d ds =>
    have herror := h d List.mem_cons_self
    rw [hclean d List.mem_cons_self] at herror
    cases herror

/-- The computation declares nothing, gives and reports always the same, and reports errors only. -/
def Notes {α : Type} (x : Declare α) : Prop :=
  ∃ a R, Errors R ∧ ∀ d : Declarations, x d = (a, { d with found := d.found ++ R })

namespace Notes

variable {α β : Type} {x : Declare α}

theorem pure (a : α) : Notes (Pure.pure a) :=
  ⟨a, [], nofun, fun d => by rw [List.append_nil]; rfl⟩

theorem bind {f : α → Declare β} (hx : Notes x) (hf : ∀ a, Notes (f a)) : Notes (x >>= f) := by
  obtain ⟨a, R, hR, hx⟩ := hx
  obtain ⟨b, R', hR', hf⟩ := hf a
  refine ⟨b, R ++ R', List.forall_mem_append.mpr ⟨hR, hR'⟩, fun d => ?_⟩
  show f (x d).1 (x d).2 = _
  rw [hx, hf, List.append_assoc]

end Notes

theorem notes_report {code : Diagnostic.Code} (h : code.severity = .error) (message : String)
    (span : Span) : Notes (report code message span) :=
  ⟨(), [⟨code, message, span, [], false⟩], List.forall_mem_singleton.mpr h, fun _ => rfl⟩

mutual

theorem notes_type : ∀ t : Syntax.TypeExpr, Notes (type refs t)
  | .named span name => by
    have hunknown (message : String) : Notes (do
        report .unknownType message span
        return Ty.any) := (notes_report rfl _ _).bind fun _ => .pure _
    unfold type
    split
    · split
      · exact .pure _
      · exact hunknown _
    · exact hunknown _
  | .callback span params => by
    have hparams : Notes (do
        let params ← types refs params
        return Ty.callback params) := (notes_types params).bind fun _ => .pure _
    unfold type
    split
    · exact (notes_report rfl _ _).bind fun _ => hparams
    · exact hparams

theorem notes_types : ∀ ts : List Syntax.TypeExpr, Notes (types refs ts)
  | [] => .pure _
  | t :: ts => (notes_type t).bind fun _ => (notes_types ts).bind fun _ => .pure _

end

theorem notes_params (ps : List Syntax.Param) : ∀ seen : List String, Notes (params refs seen ps) := by
  induction ps with
  | nil => exact fun _ => .pure _
  | cons p ps ih =>
    intro seen
    have hrest : Notes (do
        let ty ← type refs p.type
        let ps ← params refs (p.name.text :: seen) ps
        return (p.name.text, ty) :: ps) :=
      (notes_type refs p.type).bind fun _ => (ih _).bind fun _ => .pure _
    unfold params
    split
    · exact (notes_report rfl _ _).bind fun _ => hrest
    · exact hrest

theorem notes_signature (m : Syntax.Method) : Notes (signature refs m) := by
  unfold signature
  refine (notes_params refs m.params []).bind fun ps => ?_
  split
  next t _ => exact (notes_type refs t).bind fun _ => .pure _
  next => exact .pure _

/-- The signature that a method is declared with. -/
def signatureOf (m : Syntax.Method) : Signature := (signature refs m {}).1

/-- What is reported about the signature of a method. -/
def signatureReports (m : Syntax.Method) : List Diagnostic := (signature refs m {}).2.found

theorem signature_eq (m : Syntax.Method) (d : Declarations) : signature refs m d =
    (signatureOf refs m, { d with found := d.found ++ signatureReports refs m }) := by
  obtain ⟨s, R, -, h⟩ := notes_signature refs m
  have hsignature : signatureOf refs m = s := congrArg Prod.fst (h {})
  have hreports : signatureReports refs m = R := congrArg (fun r => r.2.found) (h {})
  rw [h, hsignature, hreports]

theorem errors_signatureReports (m : Syntax.Method) : Errors (signatureReports refs m) := by
  obtain ⟨s, R, hR, h⟩ := notes_signature refs m
  have hreports : signatureReports refs m = R := congrArg (fun r => r.2.found) (h {})
  rw [hreports]
  exact hR

/-- What stands behind a signature goes on with it. -/
theorem bind_signature {α : Type} (m : Syntax.Method) (f : Signature → Declare α) (d : Declarations) :
    (signature refs m >>= f) d =
      f (signatureOf refs m) { d with found := d.found ++ signatureReports refs m } := by
  show f (signature refs m d).1 (signature refs m d).2 = _
  rw [signature_eq]

theorem signatureOf_name (m : Syntax.Method) : (signatureOf refs m).name = m.name.text := by
  unfold signatureOf signature
  cases m.returns with
  | none => rfl
  | some t => rfl

/-! ### Methods of a class -/

/-- The methods have different names, none of which is taken. -/
def Fresh (seen : List String) (ms : List Syntax.Method) : Prop :=
  (ms.map fun m => m.name.text).Nodup ∧ ∀ m ∈ ms, m.name.text ∉ seen

theorem fresh_cons {seen : List String} {m : Syntax.Method} {ms : List Syntax.Method} :
    Fresh seen (m :: ms) ↔ m.name.text ∉ seen ∧ Fresh (m.name.text :: seen) ms := by
  unfold Fresh
  rw [List.map_cons, List.nodup_cons, List.forall_mem_cons]
  simp only [List.mem_cons, not_or, List.mem_map, not_exists, not_and]
  grind

theorem firsts_subset (seen : List String) (ms : List Syntax.Method) :
    Syntax.Method.firsts seen ms ⊆ ms := by
  induction ms generalizing seen with
  | nil => exact List.Subset.refl _
  | cons m ms ih =>
    rw [Syntax.Method.firsts]
    split
    · exact List.subset_cons_of_subset m (ih seen)
    · exact List.cons_subset_cons m (ih _)

theorem firsts_of_fresh {seen : List String} {ms : List Syntax.Method} (h : Fresh seen ms) :
    Syntax.Method.firsts seen ms = ms := by
  induction ms generalizing seen with
  | nil => rfl
  | cons m ms ih =>
    obtain ⟨hm, hms⟩ := fresh_cons.mp h
    rw [Syntax.Method.firsts, if_neg hm, ih hms]

/-- A method with its signature, as it is declared for a class. -/
def pendingOf (owner : TypeId) (m : Syntax.Method) : Pending := ⟨signatureOf refs m, owner, m⟩

/-- The report about a method whose name is taken. -/
def duplicateMethod (path : String) (m : Syntax.Method) : Diagnostic :=
  ⟨.duplicateDefinition, "method '" ++ m.name.text ++ "' is defined more than once in '" ++ path ++ "'",
    m.name.span, [], false⟩

/-- What the methods of a class add, and when nothing is reported about them. -/
theorem methods_eq (owner : TypeId) (path : String) (ms : List Syntax.Method) (seen : List String) :
    ∃ R, (∀ d : Declarations, methods refs owner path seen ms d =
        (List.range' d.methods.length (Syntax.Method.firsts seen ms).length,
          { d with methods := d.methods ++ (Syntax.Method.firsts seen ms).map (pendingOf refs owner)
                   found := d.found ++ R })) ∧
      Errors R ∧ (R = [] ↔ Fresh seen ms ∧ ∀ m ∈ ms, signatureReports refs m = []) := by
  induction ms generalizing seen with
  | nil =>
    refine ⟨[], fun d => ?_, nofun, iff_of_true rfl ⟨⟨List.nodup_nil, nofun⟩, nofun⟩⟩
    simp only [Syntax.Method.firsts, List.map_nil, List.append_nil]
    rfl
  | cons m ms ih =>
    rw [Syntax.Method.firsts, fresh_cons, List.forall_mem_cons]
    by_cases hseen : m.name.text ∈ seen
    · obtain ⟨R, hR, herrors, -⟩ := ih seen
      refine ⟨duplicateMethod path m :: R, fun d => ?_, List.forall_mem_cons.mpr ⟨rfl, herrors⟩,
        iff_of_false (List.cons_ne_nil _ _) fun h => h.1.1 hseen⟩
      rw [methods]
      simp only [if_pos (List.contains_iff_mem.mpr hseen), if_pos hseen]
      show methods refs owner path seen ms { d with found := d.found ++ [duplicateMethod path m] } = _
      rw [hR, List.append_assoc, List.singleton_append]
    · obtain ⟨R, hR, herrors, hnil⟩ := ih (m.name.text :: seen)
      refine ⟨signatureReports refs m ++ R, fun d => ?_,
        List.forall_mem_append.mpr ⟨errors_signatureReports refs m, herrors⟩, ?_⟩
      · rw [methods]
        simp only [if_neg (mt List.contains_iff_mem.mp hseen), if_neg hseen]
        rw [bind_signature]
        have hrest := hR ⟨d.types, d.methods ++ [pendingOf refs owner m],
          d.found ++ signatureReports refs m⟩
        show (d.methods.length :: (methods refs owner path (m.name.text :: seen) ms
            ⟨d.types, d.methods ++ [pendingOf refs owner m], d.found ++ signatureReports refs m⟩).1,
          (methods refs owner path (m.name.text :: seen) ms
            ⟨d.types, d.methods ++ [pendingOf refs owner m], d.found ++ signatureReports refs m⟩).2) = _
        rw [hrest]
        simp [List.range'_succ]
      · rw [List.append_eq_nil_iff, hnil]
        tauto

section

variable {owner : TypeId} {path : String} {seen : List String} {ms : List Syntax.Method}

/-- Where no error is reported, the methods have different names and nothing is reported about their
signatures. -/
theorem fresh_of_clean {d : Declarations} (h : Clean (methods refs owner path seen ms d).2.found) :
    Clean d.found ∧ Fresh seen ms ∧ ∀ m ∈ ms, signatureReports refs m = [] := by
  obtain ⟨R, hR, herrors, hnil⟩ := methods_eq refs owner path ms seen
  rw [hR] at h
  obtain ⟨hd, hclean⟩ := clean_append.mp h
  exact ⟨hd, hnil.mp (herrors.eq_nil hclean)⟩

variable (owner path) in
/-- What such methods add. -/
theorem methods_of_fresh (hfresh : Fresh seen ms) (hsignatures : ∀ m ∈ ms, signatureReports refs m = [])
    (d : Declarations) : methods refs owner path seen ms d = (List.range' d.methods.length ms.length,
      { d with methods := d.methods ++ ms.map (pendingOf refs owner) }) := by
  obtain ⟨R, hR, -, hnil⟩ := methods_eq refs owner path ms seen
  rw [hR, hnil.mpr ⟨hfresh, hsignatures⟩, firsts_of_fresh hfresh, List.append_nil]

end

/-! ### Where declared methods come from -/

variable {P : Syntax.Method → Prop}

/-- The methods that have been declared have a property. -/
def Declared (P : Syntax.Method → Prop) (d : Declarations) : Prop := ∀ m ∈ d.methods, P m.declaration

theorem preserves_methods (owner : TypeId) (path : String) {ms : List Syntax.Method}
    (h : ∀ m ∈ ms, P m) (seen : List String) :
    Preserves (Declared P) (methods refs owner path seen ms) := by
  intro d hd
  obtain ⟨R, hR, -⟩ := methods_eq refs owner path ms seen
  rw [hR]
  refine List.forall_mem_append.mpr ⟨hd, fun m hm => ?_⟩
  obtain ⟨m, hfirst, rfl⟩ := List.mem_map.mp hm
  exact h m (firsts_subset seen ms hfirst)

theorem preserves_duplicateClass (name : Syntax.Ident) :
    Preserves (Declared P) (duplicateClass name) := fun _ hd => hd

mutual

theorem preserves_classDecl : ∀ (parent : Option String) (c : Syntax.Class), (∀ m ∈ c.allMethods, P m) →
    Preserves (Declared P) (classDecl refs parent c)
  | parent, .mk _ name members, h => by
    obtain ⟨hown, hnested⟩ := List.forall_mem_append.mp h
    have hadd (t : TypeInfo) : Preserves (Declared P)
        (modify fun d => { d with types := d.types ++ [t] }) := fun _ hd => hd
    unfold classDecl
    exact .get_bind fun d _ => (preserves_methods refs _ _ hown []).bind fun ids =>
      (hadd _).bind fun _ => preserves_nested _ [] members hnested

theorem preserves_nested : ∀ (path : String) (seen : List String)
    (members : List (Syntax.Method ⊕ Syntax.Class)), (∀ m ∈ Syntax.Class.nestedMethods members, P m) →
      Preserves (Declared P) (nested refs path seen members)
  | _, _, [], _ => .pure ()
  | path, seen, .inl _ :: members, h => preserves_nested path seen members h
  | path, seen, .inr c :: members, h => by
    obtain ⟨hc, hmembers⟩ := List.forall_mem_append.mp h
    have hrest := (preserves_classDecl (some path) c hc).bind fun _ =>
      preserves_nested path (c.name.text :: seen) members hmembers
    unfold nested
    split
    · exact (preserves_duplicateClass c.name).bind fun _ => hrest
    · exact hrest

end

theorem preserves_classes (cs : List Syntax.Class) (h : ∀ m ∈ cs.flatMap Syntax.Class.allMethods, P m) :
    ∀ seen : List String, Preserves (Declared P) (classes refs seen cs) := by
  induction cs with
  | nil => exact fun _ => .pure ()
  | cons c cs ih =>
    intro seen
    rw [List.flatMap_cons, List.forall_mem_append] at h
    have hrest := (preserves_classDecl refs none c h.1).bind fun _ => ih h.2 (c.name.text :: seen)
    unfold classes
    split
    · exact (preserves_duplicateClass c.name).bind fun _ => hrest
    · exact hrest

end Declare

/-- Each declared method is one of the source, also when something is reported. -/
theorem declaration_mem (refs : ReferenceSet) (file : Syntax.File) :
    ∀ m ∈ (declarations refs file).methods, m.declaration ∈ file.methods :=
  Declare.preserves_classes refs file.classes (fun _ hm => hm) [] {} nofun

end ReportTemplate.Program

namespace ReportTemplate.Syntax

mutual

theorem File.Has.allMethods {f : File} : ∀ c : Class, f.Has (.classDecl c) →
    ∀ m ∈ c.allMethods, f.Has (.method m)
  | .mk span name members, h => by
    have hmembers : ∀ x ∈ members, f.Has (Element.ofMember x) := fun x hx =>
      h.part (List.mem_cons_of_mem _ (List.mem_map_of_mem hx))
    refine List.forall_mem_append.mpr ⟨fun m hm => ?_, File.Has.nestedMethods members hmembers⟩
    obtain ⟨x, hx, hleft⟩ := List.mem_filterMap.mp hm
    obtain rfl := Sum.getLeft?_eq_some_iff.mp hleft
    exact hmembers _ hx

theorem File.Has.nestedMethods {f : File} : ∀ members : List (Method ⊕ Class),
    (∀ x ∈ members, f.Has (Element.ofMember x)) → ∀ m ∈ Class.nestedMethods members, f.Has (.method m)
  | [], _ => nofun
  | .inl _ :: members, h => File.Has.nestedMethods members (List.forall_mem_cons.mp h).2
  | .inr c :: members, h =>
    List.forall_mem_append.mpr ⟨File.Has.allMethods c (List.forall_mem_cons.mp h).1,
      File.Has.nestedMethods members (List.forall_mem_cons.mp h).2⟩

end

/-- The methods of a source are nodes of it. -/
theorem File.has_method {f : File} : ∀ m ∈ f.methods, f.Has (.method m) := by
  intro m hm
  obtain ⟨c, hc, hm⟩ := List.mem_flatMap.mp hm
  exact File.Has.allMethods c (.classDecl hc) m hm

end ReportTemplate.Syntax
