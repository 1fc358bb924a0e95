import ReportTemplate.Proofs.Program.Names
import ReportTemplate.Proofs.Program.Renumbered
import ReportTemplate.Proofs.Program.Signatures
import ReportTemplate.Proofs.Syntax.Rearranged

/-!
# ReportTemplate.Proofs.Program.Rearranged — declarations of methods in another order

When nothing is reported, two sources that differ in the order of the methods of each class declare the
same classes, and each class lists the same numbers in both.  The methods have different names with their
classes, so that each has one number in the one source and one in the other.
-/

namespace ReportTemplate.Program

/-! ### Declarations that differ in the order of methods -/

/-- The methods that a class lists. -/
def Declarations.own (d : Declarations) (t : TypeInfo) : List Pending :=
  t.methods.filterMap fun id => d.methods[id]?

/-- Nothing is reported, the classes are the same, and the methods of each class may stand in another
order. -/
structure Mirrored (d e : Declarations) : Prop where
  types : e.types = d.types
  methods : d.methods.Perm e.methods
  own : ∀ t ∈ d.types, (d.own t).Perm (e.own t)
  listed : ∀ t ∈ d.types, ∀ id ∈ t.methods, id < d.methods.length
  silent : d.found = [] ∧ e.found = []

/-- A class that lists the methods at the end. -/
theorem filterMap_range' {α : Type} (l m : List α) :
    (List.range' l.length m.length).filterMap (fun i => (l ++ m)[i]?) = m := by
  induction m generalizing l with
  | nil => rfl
  | cons a m ih =>
    have hrest := ih (l ++ [a])
    rw [List.length_append, List.append_assoc] at hrest
    rw [List.length_cons, List.range'_succ, List.filterMap_cons]
    simpa using hrest

/-- Methods that are added do not change those that a class lists. -/
theorem Declarations.own_append {d : Declarations} {t : TypeInfo}
    (h : ∀ id ∈ t.methods, id < d.methods.length) (types : List TypeInfo) (ms : List Pending)
    (found : List Diagnostic) : Declarations.own ⟨types, d.methods ++ ms, found⟩ t = d.own t :=
  List.filterMap_congr fun id hid => List.getElem?_append_left (h id hid)

/-- A class is added with its methods. -/
theorem Mirrored.addClass {d e : Declarations} (h : Mirrored d e) {ms ns : List Pending}
    (hperm : ms.Perm ns) (name path : String) (nested : Bool) :
    Mirrored
      ⟨d.types ++ [⟨name, path, nested, List.range' d.methods.length ms.length⟩], d.methods ++ ms, []⟩
      ⟨e.types ++ [⟨name, path, nested, List.range' e.methods.length ns.length⟩], e.methods ++ ns, []⟩ := by
  have hlength := h.methods.length_eq
  refine ⟨?_, h.methods.append hperm, ?_, ?_, rfl, rfl⟩
  · rw [h.types, hlength, hperm.length_eq]
  · refine List.forall_mem_append.mpr ⟨fun t ht => ?_, List.forall_mem_singleton.mpr ?_⟩
    · rw [Declarations.own_append (h.listed t ht),
        Declarations.own_append fun id hid => hlength ▸ h.listed t ht id hid]
      exact h.own t ht
    · unfold Declarations.own
      rw [filterMap_range', hlength, hperm.length_eq, filterMap_range']
      exact hperm
  · refine List.forall_mem_append.mpr ⟨fun t ht id hid => ?_, List.forall_mem_singleton.mpr ?_⟩
    · have hlt : id < d.methods.length := h.listed t ht id hid
      show id < (d.methods ++ ms).length
      rw [List.length_append]
      exact Nat.lt_add_right _ hlt
    · intro id hid
      show id < (d.methods ++ ms).length
      rw [List.length_append]
      exact (List.mem_range'_1.mp hid).2

namespace Declare

/-- Where the first computation reports no error, the second reports nothing either, and declares the
same but for the order of methods. -/
def Mirrors (x y : Declare Unit) : Prop :=
  Declares x fun d _ d' => ∀ e, Mirrored d e → Mirrored d' (y e).2

namespace Mirrors

theorem pure : Mirrors (Pure.pure ()) (Pure.pure ()) := by
  refine (Declares.pure ()).mono ?_
  rintro d _ d' ⟨-, rfl⟩ e he
  exact he

theorem bind {x y : Declare Unit} {f g : Unit → Declare Unit} (hx : Mirrors x y)
    (hf : ∀ u, Mirrors (f u) (g u)) : Mirrors (x >>= f) (y >>= g) := by
  refine (Declares.bind hx hf).mono ?_
  rintro d _ d'' ⟨_, d', hfirst, hrest⟩ e he
  exact hrest _ (hfirst e he)

end Mirrors

variable (refs : ReferenceSet)

/-! ### Methods of a class -/

theorem Fresh.perm {seen : List String} {ms ns : List Syntax.Method} (h : Fresh seen ms)
    (hperm : ms.Perm ns) : Fresh seen ns :=
  ⟨(hperm.map _).nodup_iff.mp h.1, fun m hm => h.2 m (hperm.mem_iff.mpr hm)⟩

/-- Declares a class and its methods, without the classes inside it. -/
def classHead (parent : Option String) (c : Syntax.Class) : Declare Unit := do
  let owner := (← get).types.length
  let ids ← methods refs owner (pathOf parent c.name.text) [] c.methods
  modify fun d => { d with
    types := d.types ++ [⟨c.name.text, pathOf parent c.name.text, parent.isSome, ids⟩] }

/-- The declarations behind a class whose methods have all been declared. -/
def withClass (parent : Option String) (c : Syntax.Class) (d : Declarations) : Declarations :=
  ⟨d.types ++ [⟨c.name.text, pathOf parent c.name.text, parent.isSome,
      List.range' d.methods.length (c.methods.map (pendingOf refs d.types.length)).length⟩],
    d.methods ++ c.methods.map (pendingOf refs d.types.length), []⟩

theorem classHead_of_fresh (parent : Option String) {c : Syntax.Class} {d : Declarations}
    (hfound : d.found = []) (hfresh : Fresh [] c.methods)
    (hsignatures : ∀ m ∈ c.methods, signatureReports refs m = []) :
    (classHead refs parent c d).2 = withClass refs parent c d := by
  have hmethods := methods_of_fresh refs d.types.length (pathOf parent c.name.text)
    hfresh hsignatures d
  have hhead : (classHead refs parent c d).2 =
      let r := methods refs d.types.length (pathOf parent c.name.text) [] c.methods d
      { r.2 with types := r.2.types ++ [⟨c.name.text, pathOf parent c.name.text, parent.isSome, r.1⟩] } :=
    rfl
  rw [hhead, hmethods, withClass, List.length_map, ← hfound]

theorem mirrors_classHead (parent : Option String) {c d : Syntax.Class} (hname : d.name = c.name)
    (hmethods : c.methods.Perm d.methods) :
    Mirrors (classHead refs parent c) (classHead refs parent d) := by
  intro s hclean
  obtain ⟨hs, hfresh, hsignatures⟩ := fresh_of_clean refs hclean
  refine ⟨hs, fun e he => ?_⟩
  have hsignatures' : ∀ m ∈ d.methods, signatureReports refs m = [] := fun m hm =>
    hsignatures m (hmethods.mem_iff.mpr hm)
  rw [classHead_of_fresh refs parent he.silent.1 hfresh hsignatures,
    classHead_of_fresh refs parent he.silent.2 (hfresh.perm hmethods) hsignatures']
  have howner : e.types.length = s.types.length := by rw [he.types]
  unfold withClass
  rw [hname, howner]
  exact he.addClass (hmethods.map _) _ _ _

/-! ### Classes -/

/-- Declares classes next to one another; `seen` are the names in front. -/
def siblings (parent : Option String) (seen : List String) : List Syntax.Class → Declare Unit
  | [] => return
  | c :: cs => do
    if seen.contains c.name.text then duplicateClass c.name
    classDecl refs parent c
    siblings parent (c.name.text :: seen) cs

theorem nested_eq (path : String) (members : List (Syntax.Method ⊕ Syntax.Class)) :
    ∀ seen : List String, nested refs path seen members =
      siblings refs (some path) seen (members.filterMap Sum.getRight?) := by
  induction members with
  | nil => exact fun _ => rfl
  | cons x members ih =>
    intro seen
    cases x with
    | inl _ => exact ih seen
    | inr c =>
      rw [nested, ih]
      rfl

theorem classes_eq (cs : List Syntax.Class) : ∀ seen : List String,
    classes refs seen cs = siblings refs none seen cs := by
  induction cs with
  | nil => exact fun _ => rfl
  | cons c cs ih =>
    intro seen
    rw [classes, ih]
    rfl

theorem classDecl_eq (parent : Option String) (c : Syntax.Class) :
    classDecl refs parent c = (classHead refs parent c >>= fun _ =>
      siblings refs (some (pathOf parent c.name.text)) [] c.nested) := by
  cases c with
  | mk span name members =>
    unfold classDecl
    simp only [nested_eq]
    cases parent <;> rfl

theorem mirrors_siblings (parent : Option String) {cs ds : List Syntax.Class}
    (h : List.Forall₂ (fun c d => d.name = c.name ∧
      Mirrors (classDecl refs parent c) (classDecl refs parent d)) cs ds) :
    ∀ seen : List String, Mirrors (siblings refs parent seen cs) (siblings refs parent seen ds) := by
  induction h with
  | nil => exact fun _ => .pure
  | @cons c d cs ds hhead _ ih =>
    intro seen
    obtain ⟨hname, hclass⟩ := hhead
    have hrest := hclass.bind fun _ => ih (c.name.text :: seen)
    unfold siblings
    rw [hname]
    by_cases hseen : seen.contains c.name.text = true
    · simp only [if_pos hseen]
      exact declares_refused rfl _ _ (fun _ => hrest) _
    · simp only [if_neg hseen]
      exact hrest

theorem mirrors_classDecl {c d : Syntax.Class} (h : c.Rearranged d) : ∀ parent : Option String,
    Mirrors (classDecl refs parent c) (classDecl refs parent d) := by
  induction c using Syntax.Class.insideOut generalizing d with
  | h c ih =>
    intro parent
    obtain ⟨_, hname, hmethods, hnested⟩ := h
    have hinner := ((List.forall₂_and_left _ _).mpr ⟨ih, hnested⟩).imp fun i j hij =>
      And.intro hij.2.name (hij.1 hij.2 (some (pathOf parent c.name.text)))
    rw [classDecl_eq, classDecl_eq, hname]
    exact (mirrors_classHead refs parent hname hmethods).bind fun _ =>
      mirrors_siblings refs _ hinner []

end Declare

section

variable {refs : ReferenceSet} {file file' : Syntax.File}

/-- **The order of methods** shows in nothing but the order of what is declared, when nothing is
reported. -/
theorem mirrored_declarations (h : file.Rearranged file')
    (hclean : Clean (declarations refs file).found) :
    Mirrored (declarations refs file) (declarations refs file') := by
  have hclasses := Declare.mirrors_siblings refs none (h.imp fun c d hc =>
    And.intro hc.name (Declare.mirrors_classDecl refs hc none)) []
  rw [← Declare.classes_eq, ← Declare.classes_eq] at hclasses
  exact (hclasses {} hclean).2 {} ⟨rfl, .refl _, nofun, nofun, rfl, rfl⟩

end

/-! ### Numbers of methods -/

section

variable {d e : Declarations}

theorem Apart.symm {m n : Pending} (h : Apart m n) : Apart n m :=
  fun howner hname => h howner.symm hname.symm

/-- A method is found by its class and its name. -/
theorem Declarations.findMethod?_eq_some_iff (hapart : d.methods.Pairwise Apart) {owner : TypeId}
    {name : String} {id : MethodId} : d.findMethod? owner name = some id ↔
      ∃ m, d.methods[id]? = some m ∧ m.owner = owner ∧ m.signature.name = name := by
  refine ⟨Declarations.exists_of_findMethod?, ?_⟩
  rintro ⟨m, hm, rfl, rfl⟩
  obtain ⟨hid, rfl⟩ := List.getElem?_eq_some_iff.mp hm
  refine List.findIdx?_eq_some_iff_getElem.mpr ⟨hid, by simp, fun i hi => ?_⟩
  have hne := List.pairwise_iff_getElem.mp hapart i id (Nat.lt_trans hi hid) hid hi
  simpa [Apart] using hne

/-- The number that a method of `d` has in `e`. -/
def Declarations.number (d e : Declarations) (id : MethodId) : MethodId :=
  match d.methods[id]? with
  | some m => (e.findMethod? m.owner m.signature.name).getD id
  | none => id

variable (h : Mirrored d e) (hapart : d.methods.Pairwise Apart)

include h hapart

theorem Mirrored.apart : e.methods.Pairwise Apart :=
  h.methods.pairwise hapart Apart.symm

/-- A method has a number in both, by which it is found. -/
theorem Mirrored.number_eq {id : MethodId} {m : Pending} (hm : d.methods[id]? = some m) :
    ∃ j, e.methods[j]? = some m ∧ e.findMethod? m.owner m.signature.name = some j ∧
      d.number e id = j := by
  obtain ⟨j, hj⟩ := List.mem_iff_getElem?.mp (h.methods.mem_iff.mp (List.mem_of_getElem? hm))
  have hfind := (Declarations.findMethod?_eq_some_iff (h.apart hapart)).mpr ⟨m, hj, rfl, rfl⟩
  exact ⟨j, hj, hfind, by simp [Declarations.number, hm, hfind]⟩

theorem Mirrored.find (owner : TypeId) (name : String) :
    e.findMethod? owner name = (d.findMethod? owner name).map (d.number e) := by
  cases hd : d.findMethod? owner name with
  | none =>
    have hnone : ∀ m ∈ d.methods, ¬ (m.owner = owner ∧ m.signature.name = name) := by
      simpa [Declarations.findMethod?] using hd
    have hnone' : ∀ m ∈ e.methods, ¬ (m.owner = owner ∧ m.signature.name = name) := fun m hm =>
      hnone m (h.methods.mem_iff.mpr hm)
    simpa [Declarations.findMethod?] using hnone'
  | some id =>
    obtain ⟨m, hm, rfl, rfl⟩ := Declarations.exists_of_findMethod? hd
    obtain ⟨j, -, hfind, hnumber⟩ := h.number_eq hapart hm
    rw [hfind, Option.map_some, hnumber]

theorem Mirrored.get (id : MethodId) : e.methods[d.number e id]? = d.methods[id]? := by
  cases hm : d.methods[id]? with
  | none =>
    have hlength := h.methods.length_eq
    have hle := List.getElem?_eq_none_iff.mp hm
    have hnumber : d.number e id = id := by simp [Declarations.number, hm]
    rw [hnumber]
    exact List.getElem?_eq_none (by omega)
  | some m =>
    obtain ⟨j, hj, -, hnumber⟩ := h.number_eq hapart hm
    rw [hnumber, hj]

theorem Mirrored.renumbered : d.Renumbered (d.number e) e :=
  ⟨h.types, h.find hapart, h.get hapart⟩

/-- A class lists the same numbers in both. -/
theorem Mirrored.perm_number {t : TypeInfo} (ht : t ∈ d.types) :
    (t.methods.map (d.number e)).Perm t.methods := by
  -- Both lists are the numbers in `e` of the methods that the class lists.
  have hd : (d.own t).map (fun m => (e.findMethod? m.owner m.signature.name).getD 0) =
      t.methods.map (d.number e) := by
    rw [Declarations.own, List.map_filterMap, ← List.filterMap_eq_map]
    refine List.filterMap_congr fun id hid => ?_
    have hm := List.getElem?_eq_getElem (h.listed t ht id hid)
    obtain ⟨j, -, hfind, hnumber⟩ := h.number_eq hapart hm
    simp [hm, hfind, hnumber]
  have he : (e.own t).map (fun m => (e.findMethod? m.owner m.signature.name).getD 0) = t.methods := by
    rw [Declarations.own, List.map_filterMap]
    refine (List.filterMap_congr fun id hid => ?_).trans List.filterMap_some
    have hlt : id < e.methods.length := h.methods.length_eq ▸ h.listed t ht id hid
    have hm := List.getElem?_eq_getElem hlt
    have hfind := (Declarations.findMethod?_eq_some_iff (h.apart hapart)).mpr ⟨_, hm, rfl, rfl⟩
    simp [hm, hfind]
  rw [← hd]
  exact ((h.own t ht).map _).trans (.of_eq he)

end

end ReportTemplate.Program
