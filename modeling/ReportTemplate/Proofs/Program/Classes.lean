import ReportTemplate.Proofs.Program.Names

/-!
# ReportTemplate.Proofs.Program.Classes — the classes of a source and those of its program

The classes of a source are counted as they begin in it, so that an outer one comes before the classes
inside it.  Each has a path: the names of the classes around it, and its own.  Without an error just these
classes are declared, in this order, and each has the methods that stand directly in it.
-/

namespace ReportTemplate

/-! ### The classes of a source -/

namespace Syntax

/-- A class of a source, with its path. -/
structure Place where
  path : String
  declaration : Class

mutual

/-- A class, and then the classes inside it. -/
def Class.places (parent : Option String) : Class → List Place
  | .mk span name members =>
    ⟨Program.pathOf parent name.text, .mk span name members⟩ ::
      Class.nestedPlaces (Program.pathOf parent name.text) members

def Class.nestedPlaces (path : String) : List (Method ⊕ Class) → List Place
  | [] => []
  | .inl _ :: members => Class.nestedPlaces path members
  | .inr c :: members => c.places (some path) ++ Class.nestedPlaces path members

end

/-- The classes of a source. -/
def File.places (f : File) : List Place := f.classes.flatMap (Class.places none)

theorem Class.mem_places_self (parent : Option String) (c : Class) :
    ⟨Program.pathOf parent c.name.text, c⟩ ∈ c.places parent := by
  cases c
  exact List.mem_cons_self

theorem Class.mem_nestedPlaces {path : String} {p : Place} {c : Class} (hp : p ∈ c.places (some path))
    {members : List (Method ⊕ Class)} (hc : .inr c ∈ members) :
    p ∈ Class.nestedPlaces path members := by
  induction members with
  | nil => cases hc
  | cons x members ih =>
    cases x with
    | inl m =>
      obtain hfirst | hrest := List.mem_cons.mp hc
      · cases hfirst
      · exact ih hrest
    | inr c' =>
      refine List.mem_append.mpr ?_
      obtain hfirst | hrest := List.mem_cons.mp hc
      · obtain rfl := Sum.inr.inj hfirst
        exact .inl hp
      · exact .inr (ih hrest)

/-- The place of a class directly inside the class of another place. -/
def Place.inner (p : Place) (c : Class) : Place := ⟨p.path ++ "." ++ c.name.text, c⟩

mutual

theorem Class.inner_mem_places (parent : Option String) : ∀ (c : Class) {p : Place},
    p ∈ c.places parent → ∀ {d : Class}, d ∈ p.declaration.nested → p.inner d ∈ c.places parent
  | .mk span name members, p, hp, d, hd => by
    refine List.mem_cons_of_mem _ ?_
    obtain rfl | hp := List.mem_cons.mp hp
    · obtain ⟨x, hx, hget⟩ := List.mem_filterMap.mp hd
      obtain rfl := Sum.getRight?_eq_some_iff.mp hget
      exact Class.mem_nestedPlaces (d.mem_places_self (some _)) hx
    · exact Class.inner_mem_nestedPlaces _ members hp hd

theorem Class.inner_mem_nestedPlaces (path : String) : ∀ (members : List (Method ⊕ Class)) {p : Place},
    p ∈ Class.nestedPlaces path members → ∀ {d : Class}, d ∈ p.declaration.nested →
      p.inner d ∈ Class.nestedPlaces path members
  | .inl _ :: members, _, hp, _, hd => Class.inner_mem_nestedPlaces path members hp hd
  | .inr c :: members, _, hp, _, hd =>
    List.mem_append.mpr ((List.mem_append.mp hp).imp
      (fun hp => Class.inner_mem_places (some path) c hp hd)
      fun hp => Class.inner_mem_nestedPlaces path members hp hd)

end

/-- The classes directly inside a class of a source are classes of the source. -/
theorem File.inner_mem_places {f : File} {p : Place} (hp : p ∈ f.places) {d : Class}
    (hd : d ∈ p.declaration.nested) : p.inner d ∈ f.places := by
  obtain ⟨c, hc, hp⟩ := List.mem_flatMap.mp hp
  exact List.mem_flatMap.mpr ⟨c, hc, Class.inner_mem_places none c hp hd⟩

/-- The methods that stand directly in some classes, each with the number of its class. -/
def Place.owned (ps : List Place) : List (Nat × Method) :=
  ps.zipIdx.flatMap fun q => q.1.declaration.methods.map (q.2, ·)

theorem Place.owned_concat (ps : List Place) (p : Place) :
    Place.owned (ps ++ [p]) = Place.owned ps ++ p.declaration.methods.map (ps.length, ·) := by
  simp [Place.owned, List.zipIdx_append]

theorem Place.mem_owned {ps : List Place} {i : Nat} {p : Place} (hp : ps[i]? = some p) {m : Method}
    (hm : m ∈ p.declaration.methods) : (i, m) ∈ Place.owned ps :=
  List.mem_flatMap.mpr ⟨(p, i), List.mem_zipIdx_iff_getElem?.mpr hp, List.mem_map_of_mem hm⟩

end Syntax

/-! ### The classes that are declared -/

namespace Program

open Syntax (Place)

/-- Just the classes `ps` have been declared, with the methods that stand in them. -/
structure Declarations.Standing (ps : List Place) (d : Declarations) : Prop where
  classes : d.types.map (fun t => (t.name, t.path)) = ps.map fun p => (p.declaration.name.text, p.path)
  methods : d.methods.map (fun m => (m.owner, m.declaration)) = Place.owned ps

namespace Declarations.Standing

variable {ps : List Place} {d : Declarations}

theorem length_types (h : d.Standing ps) : d.types.length = ps.length := by
  have hlength := congrArg List.length h.classes
  rwa [List.length_map, List.length_map] at hlength

/-- One more class is declared, and the methods that stand in it. -/
theorem concat (h : d.Standing ps) {p : Place} {e f : Declarations} {ids : List MethodId}
    {new : List Pending} {t : TypeInfo}
    (hnew : Declare.Added d.types.length p.declaration.methods d ids e new)
    (htypes : f.types = e.types ++ [t]) (hmethods : f.methods = e.methods)
    (ht : (t.name, t.path) = (p.declaration.name.text, p.path)) : f.Standing (ps ++ [p]) := by
  refine ⟨?_, ?_⟩
  · rw [htypes, hnew.types, List.map_append, List.map_append, h.classes, List.map_singleton, ht,
      List.map_singleton]
  · have howner : new.map (fun m => (m.owner, m.declaration)) =
        p.declaration.methods.map (ps.length, ·) := by
      rw [← hnew.declarations, List.map_map]
      refine List.map_congr_left fun m hm => ?_
      rw [(hnew.faithful m hm).1, h.length_types]
      rfl
    rw [hmethods, hnew.methods, List.map_append, h.methods, howner, Place.owned_concat]

/-- A name stands for the first class that has it. -/
theorem findType?_eq (h : d.Standing ps) (name : String) :
    d.findType? name = ps.findIdx? fun p => p.declaration.name.text = name := by
  have hnames := congrArg (List.findIdx? fun label : String × String => label.1 = name) h.classes
  rwa [List.findIdx?_map, List.findIdx?_map] at hnames

/-- The methods that stand in a class are declared as its methods. -/
theorem exists_method (h : d.Standing ps) {i : Nat} {p : Place} (hp : ps[i]? = some p)
    {m : Syntax.Method} (hm : m ∈ p.declaration.methods) :
    ∃ (id : MethodId) (pending : Pending), d.methods[id]? = some pending ∧ pending.owner = i ∧
      pending.declaration = m := by
  have hmem := Place.mem_owned hp hm
  rw [← h.methods] at hmem
  obtain ⟨pending, hpending, heq⟩ := List.mem_map.mp hmem
  obtain ⟨id, hid⟩ := List.mem_iff_getElem?.mp hpending
  exact ⟨id, pending, hid, congrArg Prod.fst heq, congrArg Prod.snd heq⟩

end Declarations.Standing

namespace Declare

variable (refs : ReferenceSet)

mutual

theorem standing_classDecl : ∀ (parent : Option String) (c : Syntax.Class),
    Declares (classDecl refs parent c) fun d _ e =>
      ∀ ps, d.Standing ps → e.Standing (ps ++ c.places parent)
  | parent, .mk span name members => by
    have hadd (t : TypeInfo) : Declares (modify fun d => { d with types := d.types ++ [t] })
        fun d _ e => e.types = d.types ++ [t] ∧ e.methods = d.methods :=
      fun d hclean => ⟨hclean, rfl, rfl⟩
    refine (Declares.get.bind fun d => (declares_methods refs d.types.length _
      (members.filterMap Sum.getLeft?) []).bind fun ids =>
        (hadd ⟨name.text, _, parent.isSome, ids⟩).bind fun _ =>
          standing_nested (pathOf parent name.text) [] members).mono ?_
    rintro d _ e ⟨_, _, ⟨rfl, rfl⟩, ids, d₁, ⟨new, hnew⟩, _, d₂, ⟨htypes, hmethods⟩, hinner⟩ ps hps
    have hself : d₂.Standing (ps ++ [⟨pathOf parent name.text, .mk span name members⟩]) :=
      hps.concat hnew htypes hmethods rfl
    rw [Syntax.Class.places, ← List.singleton_append, ← List.append_assoc]
    exact hinner _ hself

theorem standing_nested : ∀ (path : String) (seen : List String)
    (members : List (Syntax.Method ⊕ Syntax.Class)), Declares (nested refs path seen members)
      fun d _ e => ∀ ps, d.Standing ps → e.Standing (ps ++ Syntax.Class.nestedPlaces path members)
  | _, _, [] => by
    refine (Declares.pure ()).mono ?_
    rintro d _ e ⟨-, rfl⟩ ps hps
    rwa [Syntax.Class.nestedPlaces, List.append_nil]
  | path, seen, .inl _ :: members => standing_nested path seen members
  | path, seen, .inr c :: members => by
    have hrest := (standing_classDecl (some path) c).bind fun _ =>
      standing_nested path (c.name.text :: seen) members
    unfold nested
    split
    · exact declares_refused rfl _ c.name.span (fun _ => hrest) _
    · refine hrest.mono ?_
      rintro d _ e ⟨_, _, h₁, h₂⟩ ps hps
      rw [Syntax.Class.nestedPlaces, ← List.append_assoc]
      exact h₂ _ (h₁ ps hps)

end

theorem standing_classes (cs : List Syntax.Class) : ∀ seen : List String,
    Declares (classes refs seen cs) fun d _ e =>
      ∀ ps, d.Standing ps → e.Standing (ps ++ cs.flatMap (Syntax.Class.places none)) := by
  induction cs with
  | nil =>
    intro seen
    refine (Declares.pure ()).mono ?_
    rintro d _ e ⟨-, rfl⟩ ps hps
    rwa [List.flatMap_nil, List.append_nil]
  | cons c cs ih =>
    intro seen
    have hrest := (standing_classDecl refs none c).bind fun _ => ih (c.name.text :: seen)
    unfold classes
    split
    · exact declares_refused rfl _ c.name.span (fun _ => hrest) _
    · refine hrest.mono ?_
      rintro d _ e ⟨_, _, h₁, h₂⟩ ps hps
      rw [List.flatMap_cons, ← List.append_assoc]
      exact h₂ _ (h₁ ps hps)

end Declare

/-- **Classes**: without an error the declared classes are those of the source, in their order, each with
its path and the methods that stand directly in it. -/
theorem declarations_standing {refs : ReferenceSet} {file : Syntax.File}
    (h : Clean (declarations refs file).found) : (declarations refs file).Standing file.places := by
  obtain ⟨-, hall⟩ := Declare.standing_classes refs file.classes [] {} h
  exact hall [] ⟨rfl, rfl⟩

end Program

end ReportTemplate
