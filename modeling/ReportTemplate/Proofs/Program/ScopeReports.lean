import ReportTemplate.Proofs.Program.Scoping

/-!
# ReportTemplate.Proofs.Program.ScopeReports — what is reported about names

Whatever else is wrong with a source, its methods are resolved with the classes of the source around them,
but for those that repeat a name of their class.  What is reported about names without a local and about
locals that are never used follows from the syntax tree alone.
-/

namespace ReportTemplate.Program

open Syntax (Ident)

namespace Declare

/-- What can be wrong with a declaration. -/
def declarationCodes : List Diagnostic.Code := [.unknownType, .duplicateDefinition]

/-- Methods and classes of some names have come to the declarations, and nothing has been reported but
about declarations. -/
structure Adds (ms : List Syntax.Method) (names : List String) (d e : Declarations) : Prop where
  methods : ∃ new, e.methods = d.methods ++ new ∧ new.map Pending.declaration = ms ∧
    ∀ m ∈ new, m.Faithful
  types : e.types.map TypeInfo.name = d.types.map TypeInfo.name ++ names
  found : ∃ new, e.found = d.found ++ new ∧ ∀ x ∈ new, x.code ∈ declarationCodes

variable {ms ms' : List Syntax.Method} {names names' : List String} {d e f : Declarations}

theorem Adds.refl (d : Declarations) : Adds [] [] d d where
  methods := ⟨[], (List.append_nil _).symm, rfl, nofun⟩
  types := (List.append_nil _).symm
  found := ⟨[], (List.append_nil _).symm, nofun⟩

theorem Adds.trans (h : Adds ms names d e) (h' : Adds ms' names' e f) :
    Adds (ms ++ ms') (names ++ names') d f where
  methods := by
    obtain ⟨new, hnew, rfl, hfaithful⟩ := h.methods
    obtain ⟨new', hnew', rfl, hfaithful'⟩ := h'.methods
    refine ⟨new ++ new', ?_, List.map_append, List.forall_mem_append.mpr ⟨hfaithful, hfaithful'⟩⟩
    rw [hnew', hnew, List.append_assoc]
  types := by rw [h'.types, h.types, List.append_assoc]
  found := by
    obtain ⟨new, hnew, hcodes⟩ := h.found
    obtain ⟨new', hnew', hcodes'⟩ := h'.found
    refine ⟨new ++ new', ?_, List.forall_mem_append.mpr ⟨hcodes, hcodes'⟩⟩
    rw [hnew', hnew, List.append_assoc]

/-- The reports that are about no declaration stay as they are. -/
theorem Adds.filter_found {p : Diagnostic.Code → Bool} (h : Adds ms names d e)
    (hp : ∀ code ∈ declarationCodes, p code = false) :
    e.found.filter (fun x => p x.code) = d.found.filter fun x => p x.code := by
  obtain ⟨new, hnew, hcodes⟩ := h.found
  have hnone : new.filter (fun x => p x.code) = [] :=
    List.filter_eq_nil_iff.mpr fun x hx => by simp [hp x.code (hcodes x hx)]
  rw [hnew, List.filter_append, hnone, List.append_nil]

theorem Adds.missed (h : Adds ms names d e) : missed e.found = missed d.found :=
  h.filter_found (p := fun code => code = .unknownVariable || code = .undeclaredAssignment)
    (by decide)

theorem Adds.unused (h : Adds ms names d e) : unused e.found = unused d.found :=
  h.filter_found (p := fun code => code = .unusedVariable) (by decide)

/-- A computation that declares, whatever it finds wrong. -/
def Adding {α : Type} (ms : List Syntax.Method) (names : List String) (x : Declare α) : Prop :=
  ∀ d, Adds ms names d (x d).2

namespace Adding

variable {α β : Type} {x : Declare α}

theorem pure (a : α) : Adding [] [] (Pure.pure a : Declare α) := .refl

theorem bind {f : α → Declare β} (hx : Adding ms names x) (hf : ∀ a, Adding ms' names' (f a)) :
    Adding (ms ++ ms') (names ++ names') (x >>= f) :=
  fun d => (hx d).trans (hf _ _)

/-- Nothing is added in front. -/
theorem get_bind {f : Declarations → Declare β} (hf : ∀ d, Adding ms names (f d)) :
    Adding ms names (get >>= f) :=
  fun d => hf d d

end Adding

theorem adding_report {code : Diagnostic.Code} (hcode : code ∈ declarationCodes) (message : String)
    (span : Span) : Adding [] [] (report code message span) := fun _ =>
  ⟨⟨[], (List.append_nil _).symm, rfl, nofun⟩, (List.append_nil _).symm, _, rfl,
    List.forall_mem_singleton.mpr hcode⟩

/-- What may be reported first. -/
theorem adding_reportIf {c : Prop} [Decidable c] {code : Diagnostic.Code}
    (hcode : code ∈ declarationCodes) (message : String) (span : Span) {α : Type} {x : Declare α}
    (hx : Adding ms names x) :
    Adding ms names (do
      if c then report code message span
      x) := by
  split
  · exact (adding_report hcode message span).bind fun _ => hx
  · exact hx

variable (refs : ReferenceSet)

/-! ### Signatures -/

mutual

theorem adding_type : ∀ t : Syntax.TypeExpr, Adding [] [] (type refs t)
  | .named span name => by
    have hunknown : Adding [] [] (report .unknownType ("unknown type '" ++ name ++ "'") span) :=
      adding_report (by decide) _ span
    unfold type
    split
    · split
      · exact .pure _
      · exact hunknown.bind fun _ => .pure _
    · exact hunknown.bind fun _ => .pure _
  | .callback span params => by
    unfold type
    exact adding_reportIf (by decide) _ span ((adding_types params).bind fun _ => .pure _)

theorem adding_types : ∀ ts : List Syntax.TypeExpr, Adding [] [] (types refs ts)
  | [] => .pure _
  | t :: ts => (adding_type t).bind fun _ => (adding_types ts).bind fun _ => .pure _

end

theorem adding_params (ps : List Syntax.Param) : ∀ seen : List String,
    Adding [] [] (params refs seen ps) := by
  induction ps with
  | nil => exact fun _ => .pure _
  | cons p ps ih =>
    intro seen
    unfold params
    exact adding_reportIf (by decide) _ p.name.span
      ((adding_type refs p.type).bind fun _ => (ih _).bind fun _ => .pure _)

theorem adding_signature (m : Syntax.Method) : Adding [] [] (signature refs m) := by
  refine (adding_params refs m.params []).bind fun _ => ?_
  split
  · exact (adding_type refs _).bind fun _ => .pure _
  · exact .pure _

/-! ### Classes -/

theorem adding_methods (owner : TypeId) (path : String) (ms : List Syntax.Method) :
    ∀ seen : List String, Adding (Syntax.Method.firsts seen ms) [] (methods refs owner path seen ms) := by
  induction ms with
  | nil => exact fun _ => .pure _
  | cons m ms ih =>
    intro seen
    unfold methods Syntax.Method.firsts
    by_cases hseen : m.name.text ∈ seen
    · rw [if_pos (List.contains_iff_mem.mpr hseen), if_pos hseen]
      exact (adding_report (by decide) _ m.name.span).bind fun _ => ih seen
    · rw [if_neg (mt List.contains_iff_mem.mp hseen), if_neg hseen]
      intro d
      have hsignature := adding_signature refs m d
      have hadd (e : Declarations) : Adds [m] [] e { e with
          methods := e.methods ++ [⟨(signature refs m d).1, owner, m⟩] } :=
        ⟨⟨_, rfl, rfl, List.forall_mem_singleton.mpr (faithful_signature refs m owner d)⟩,
          (List.append_nil _).symm, (Adds.refl e).found⟩
      exact (hsignature.trans (hadd _)).trans (ih _ _)

mutual

theorem adding_classDecl : ∀ (parent : Option String) (c : Syntax.Class),
    Adding c.firstMethods c.names (classDecl refs parent c)
  | parent, .mk span name members => by
    have hadd (t : TypeInfo) :
        Adding [] [t.name] (modify fun d => { d with types := d.types ++ [t] }) := fun d =>
      ⟨⟨[], (List.append_nil _).symm, rfl, nofun⟩, List.map_append, (Adds.refl d).found⟩
    exact .get_bind fun d => (adding_methods refs _ _ _ []).bind fun ids =>
      (hadd ⟨name.text, _, _, ids⟩).bind fun _ => adding_nested _ [] members

theorem adding_nested : ∀ (path : String) (seen : List String)
    (members : List (Syntax.Method ⊕ Syntax.Class)),
      Adding (Syntax.Class.nestedFirstMethods members) (Syntax.Class.nestedNames members)
        (nested refs path seen members)
  | _, _, [] => .pure ()
  | path, seen, .inl _ :: members => adding_nested path seen members
  | path, seen, .inr c :: members => by
    unfold nested
    exact adding_reportIf (by decide) _ c.name.span
      ((adding_classDecl (some path) c).bind fun _ => adding_nested path _ members)

end

theorem adding_classes (cs : List Syntax.Class) : ∀ seen : List String,
    Adding (cs.flatMap Syntax.Class.firstMethods) (cs.flatMap Syntax.Class.names)
      (classes refs seen cs) := by
  induction cs with
  | nil => exact fun _ => .pure ()
  | cons c cs ih =>
    intro seen
    unfold classes
    exact adding_reportIf (by decide) _ c.name.span ((adding_classDecl refs none c).bind fun _ => ih _)

end Declare

/-! ### Reports -/

section Reports

variable (refs : ReferenceSet) (file : Syntax.File)

theorem adds_declarations :
    Declare.Adds file.firstMethods file.classNames {} (declarations refs file) :=
  Declare.adding_classes refs file.classes [] {}

theorem namesClass_declarations (lines : LineIndex) (owner : TypeId) :
    Resolve.namesClass ⟨refs, lines, declarations refs file, owner⟩ = (· ∈ file.classNames) := by
  have htypes : (declarations refs file).types.map TypeInfo.name = file.classNames :=
    (adds_declarations refs file).types
  funext name
  change ((declarations refs file).types.findIdx? _).isSome = decide (name ∈ file.classNames)
  rw [List.findIdx?_isSome, ← htypes, Bool.eq_iff_iff, List.any_eq_true, decide_eq_true_iff,
    List.mem_map]
  exact exists_congr fun t => and_congr_right fun _ => decide_eq_true_iff

/-- What is reported about the names in a method. -/
theorem follows_resolveMethod (lines : LineIndex) {m : Pending} (hm : m.Faithful) :
    let found := (resolveMethod refs lines (declarations refs file) m).2
    missed found = m.declaration.free.filterMap (missing? (· ∈ file.classNames)) ∧
      unused found = (Syntax.Stmt.allIdle m.declaration.body).map unusedVariable := by
  have h := Resolve.follows_body (S := ⟨refs, lines, declarations refs file, m.owner⟩) hm
  rw [namesClass_declarations] at h
  exact ⟨h.missed, h.unused⟩

/-- **Names**: the names that are reported are those that stand for no local in a method, and the
locals that are reported the `let`s that no name uses; each is reported once, in the order in which it is
met, whatever else is wrong with the source. -/
theorem resolve_reports_names (lines : LineIndex) :
    missed (resolve refs lines file).2 = file.firstMethods.flatMap
        (fun m => m.free.filterMap (missing? (· ∈ file.classNames))) ∧
      unused (resolve refs lines file).2 = file.firstMethods.flatMap
        (fun m => (Syntax.Stmt.allIdle m.body).map unusedVariable) := by
  have h := adds_declarations refs file
  obtain ⟨new, hnew, hfirst, hfaithful⟩ := h.methods
  have hmethod := fun m hm => follows_resolveMethod refs file lines (hfaithful m hm)
  have hfound : (resolve refs lines file).2 = (declarations refs file).found ++
      new.flatMap fun m => (resolveMethod refs lines (declarations refs file) m).2 := by
    change _ ++ ((declarations refs file).methods.map _).flatMap Prod.snd = _
    rw [hnew, List.flatMap_map]
    rfl
  rw [hfound, ← hfirst, List.flatMap_map, List.flatMap_map]
  constructor
  · rw [missed_append, h.missed, missed, missed, List.filter_nil, List.nil_append, List.filter_flatMap]
    exact List.flatMap_congr fun m hm => (hmethod m hm).1
  · rw [unused_append, h.unused, unused, unused, List.filter_nil, List.nil_append, List.filter_flatMap]
    exact List.flatMap_congr fun m hm => (hmethod m hm).2

end Reports

end ReportTemplate.Program
