import ReportTemplate.Library.Standard
import ReportTemplate.Proofs.Program.Classes
import ReportTemplate.Proofs.Program.Evaluated

/-!
# ReportTemplate.Proofs.Program.Qualified — calls through the name of a class

A call `Type.method(…)`, where the name in front is that of no local, is looked up in one table of the
names of all classes: it calls the method of the first class of this name in the source, wherever the
classes are nested.  A class inside the one that holds the call is meant only as long as no class in
front of it has the same name.
-/

namespace ReportTemplate

/-! ### Calls and what they call -/

namespace Syntax

/-- The class and the method that a call names, if its receiver is a name, but not of a local. -/
def Situated.qualified? : Situated → Option (String × String)
  | ⟨visible, .method _ (.ident _ type) method _⟩ =>
    if type ∈ visible then none else some (type, method.text)
  | _ => none

theorem Situated.exists_of_qualified? {site : Situated} {type method : String}
    (h : site.qualified? = some (type, method)) : ∃ span at' name args,
      site.expr = .method span (.ident at' type) name args ∧ type ∉ site.visible ∧
        name.text = method := by
  unfold qualified? at h
  split at h
  · split at h
    · cases h
    · next visible span at' type' name args hfree =>
      obtain ⟨rfl, rfl⟩ := Prod.mk.inj (Option.some.inj h)
      exact ⟨span, at', name, args, rfl, hfree, rfl⟩
  · cases h

/-- The names of classes. -/
def Place.names (ps : List Place) : List String := ps.map fun p => p.declaration.name.text

end Syntax

namespace Program

open Syntax (Place Situated)

/-- The class, by its number, and the name of the method that an expression calls. -/
def Expr.target? (p : Program) : Expr → Option (TypeId × String)
  | .callMethod _ id _ => p.methods[id]?.map fun m => (m.owner, m.signature.name)
  | _ => none

/-- In every method of a source, each call through the name of a class has become an expression, on the
line of the call, that `Q` says something of. -/
def EveryQualified (source : List Char) (file : Syntax.File) (p : Program)
    (Q : Place → String → String → Expr → Prop) : Prop :=
  ∀ (i : TypeId) (place : Place), file.places[i]? = some place →
    ∀ m ∈ place.declaration.methods, ∃ m' ∈ p.methods, m'.owner = i ∧
      m'.signature.name = m.name.text ∧
        List.Forall₂ (fun site e => e.line = (LineIndex.ofSource source).line site.expr.span.start ∧
          ∀ type method, site.qualified? = some (type, method) → Q place type method e)
        m.evaluated m'.evaluated

/-- A call through the name of a class that stands directly in the class of the call calls a method of
that class. -/
def CallsNested (ps : List Place) (p : Program) (place : Place) (type method : String) (e : Expr) :
    Prop :=
  ∀ inner ∈ place.declaration.nested, inner.name.text = type →
    ∃ j, ps[j]? = some (place.inner inner) ∧ e.target? p = some (j, method)

/-- A call through the name of a class calls a method of the first class of this name.  So it calls one of
the class of this name that stands directly in the class of the call just if no other class of the name
stands in front of that one. -/
structure CallsFirst (ps : List Place) (p : Program) (place : Place) (type method : String) (e : Expr) :
    Prop where
  first : ∃ j, ps.findIdx? (fun q => q.declaration.name.text = type) = some j ∧
    e.target? p = some (j, method)
  nested : ∀ inner ∈ place.declaration.nested, inner.name.text = type →
    ∃ j, ps[j]? = some (place.inner inner) ∧
      (e.target? p = some (j, method) ↔ type ∉ Place.names (ps.take j))

theorem EveryQualified.mono {source : List Char} {file : Syntax.File} {p : Program}
    {Q Q' : Place → String → String → Expr → Prop} (h : EveryQualified source file p Q)
    (hQ : ∀ place ∈ file.places, ∀ type method e, Q place type method e → Q' place type method e) :
    EveryQualified source file p Q' := by
  intro i place hplace m hm
  obtain ⟨m', hm', howner, hname, hall⟩ := h i place hplace m hm
  have hmem := List.mem_of_getElem? hplace
  exact ⟨m', hm', howner, hname, hall.imp fun _ _ hsite =>
    ⟨hsite.1, fun type method hcall => hQ place hmem type method _ (hsite.2 type method hcall)⟩⟩

/-- The first element with a property is the one at a place that has it just if none in front has it. -/
theorem findIdx?_eq_iff {ps : List Place} {type : String} {j k : Nat} {q : Place}
    (hfirst : ps.findIdx? (fun q => q.declaration.name.text = type) = some k)
    (hq : ps[j]? = some q) (hname : q.declaration.name.text = type) :
    k = j ↔ type ∉ Place.names (ps.take j) := by
  obtain ⟨hk, hnamed, hfront⟩ := List.findIdx?_eq_some_iff_getElem.mp hfirst
  obtain ⟨hj, rfl⟩ := List.getElem?_eq_some_iff.mp hq
  constructor
  · rintro rfl hmem
    obtain ⟨p, hp, hptype⟩ := List.mem_map.mp hmem
    obtain ⟨i, hi, rfl⟩ := List.mem_take_iff_getElem.mp hp
    exact hfront i (Nat.lt_of_lt_of_le hi (Nat.min_le_left _ _)) (decide_eq_true hptype)
  · intro hfree
    refine Nat.le_antisymm (Nat.le_of_not_lt fun hlt => ?_) (Nat.le_of_not_lt fun hlt => ?_)
    · exact hfront j hlt (decide_eq_true hname)
    · refine hfree (List.mem_map.mpr ⟨ps[k], ?_, of_decide_eq_true hnamed⟩)
      exact List.mem_take_iff_getElem.mpr ⟨k, Nat.lt_min.mpr ⟨hlt, hk⟩, rfl⟩

/-! ### Resolved calls -/

section

variable {refs : ReferenceSet} {lines : LineIndex} {file : Syntax.File} {owner : TypeId}

/-- A call through the name of a class calls a method of the first class of this name. -/
theorem Becomes.first (h : Clean (resolve refs lines file).2) {site : Situated} {e : Expr}
    (hbecomes : Becomes ⟨refs, lines, declarations refs file, owner⟩ site e) {type method : String}
    (hcall : site.qualified? = some (type, method)) :
    ∃ j, file.places.findIdx? (fun q => q.declaration.name.text = type) = some j ∧
      e.target? (resolve refs lines file).1 = some (j, method) := by
  obtain ⟨visible, expr⟩ := site
  obtain ⟨span, at', name, args, rfl, hfree, rfl⟩ := Situated.exists_of_qualified? hcall
  obtain ⟨v, rfl, hresolves⟩ := hbecomes
  have hread := Scopes.read?_eq_none_iff.mpr hfree
  -- The receiver is no local, so that it has not been resolved as a value.
  have hvalue {r' : Expr} : ¬ Resolves ⟨refs, lines, declarations refs file, owner⟩ v
      (.ident at' type) r' := by
    rintro (_ | ⟨found⟩)
    rw [hread] at found
    cases found
  cases hresolves with
  | qualified named _ found _ =>
    rw [Scoped.receiverType?_free _ hread] at named
    obtain ⟨m, hm, howner, hname⟩ := Declarations.exists_of_findMethod? found
    obtain ⟨m', hm', himplements⟩ := resolve_implements h hm
    refine ⟨_, (declarations_standing (clean_declarations h)).findType?_eq type ▸ named, ?_⟩
    rw [Expr.target?, hm', Option.map_some, himplements.owner, himplements.signature, howner, hname]
  | document _ object | dynamic _ object | receiver _ object => exact absurd object hvalue

/-- The same, and which class this is when one of the name stands in the class of the call. -/
theorem Becomes.callsFirst (h : Clean (resolve refs lines file).2) {site : Situated} {e : Expr}
    (hbecomes : Becomes ⟨refs, lines, declarations refs file, owner⟩ site e) {type method : String}
    (hcall : site.qualified? = some (type, method)) {place : Place} (hplace : place ∈ file.places) :
    CallsFirst file.places (resolve refs lines file).1 place type method e := by
  obtain ⟨k, hfirst, htarget⟩ := hbecomes.first h hcall
  refine ⟨⟨k, hfirst, htarget⟩, fun inner hinner hname => ?_⟩
  obtain ⟨j, hj⟩ := List.mem_iff_getElem?.mp (Syntax.File.inner_mem_places hplace hinner)
  refine ⟨j, hj, ?_⟩
  rw [htarget, ← findIdx?_eq_iff hfirst hj hname]
  exact ⟨fun heq => (Prod.mk.inj (Option.some.inj heq)).1, fun heq => heq ▸ rfl⟩

theorem everyQualified_of_clean {source : List Char}
    (h : Clean (resolve refs (LineIndex.ofSource source) file).2) :
    EveryQualified source file (resolve refs (LineIndex.ofSource source) file).1
      (CallsFirst file.places (resolve refs (LineIndex.ofSource source) file).1) := by
  intro i place hplace m hm
  obtain ⟨id, pending, hpending, rfl, rfl⟩ :=
    (declarations_standing (clean_declarations h)).exists_method hplace hm
  obtain ⟨m', hm', himplements⟩ := resolve_implements h hpending
  refine ⟨m', List.mem_of_getElem? hm', himplements.owner, ?_, ?_⟩
  · rw [himplements.signature, himplements.faithful.name]
  · refine himplements.evaluated.imp fun site e hbecomes => ⟨?_, fun type method hcall => ?_⟩
    · obtain ⟨v, -, hresolves⟩ := hbecomes
      exact hresolves.line
    · exact hbecomes.callsFirst h hcall (List.mem_of_getElem? hplace)

end

/-- **Qualified calls**: the classes of a program are those of its source.  In every method of one, each
call through the name of a class calls the method of the first class of this name in the source.  It is
the class of the name that stands directly in the class of the call just if no other one stands in front
of it; where this is so for every class inside another one, all such calls keep to the nesting. -/
theorem qualified_calls {refs : ReferenceSet} {policy : WarningPolicy} {source : List Char}
    {c : Compiled} (h : compile refs policy source = .ok c) :
    ∃ file, Syntax.parse source = .ok file ∧
      c.program.types.map (fun t => (t.name, t.path)) =
        file.places.map (fun q => (q.declaration.name.text, q.path)) ∧
      EveryQualified source file c.program (CallsFirst file.places c.program) ∧
      ((∀ place ∈ file.places, ∀ inner ∈ place.declaration.nested,
          ∀ j, file.places[j]? = some (place.inner inner) →
            inner.name.text ∉ Place.names (file.places.take j)) →
        EveryQualified source file c.program (CallsNested file.places c.program)) := by
  obtain ⟨file, hparse, hprogram, hclean⟩ := compile_ok h
  have hevery := everyQualified_of_clean hclean
  rw [← hprogram] at hevery
  refine ⟨file, hparse, ?_, hevery, fun hahead => ?_⟩
  · rw [hprogram]
    exact (declarations_standing (clean_declarations hclean)).classes
  · refine hevery.mono fun place hplace type method e hcalls inner hinner hname => ?_
    obtain ⟨j, hj, hiff⟩ := hcalls.nested inner hinner hname
    exact ⟨j, hj, hiff.mpr (hname ▸ hahead place hplace inner hinner j hj)⟩

/-! ### Classes of one name -/

/-- A source in which nothing is found compiles. -/
theorem compile_of_nothing {refs : ReferenceSet} (policy : WarningPolicy) {source : List Char}
    {file : Syntax.File} (hparse : Syntax.parse source = .ok file)
    (h : (resolve refs (LineIndex.ofSource source) file).2 = []) :
    compile refs policy source = .ok ⟨(resolve refs (LineIndex.ofSource source) file).1, []⟩ := by
  have hplaces : byPlace [] = [] := by simp [byPlace]
  unfold compile
  rw [hparse]
  unfold ofFile
  dsimp only
  rw [h, List.map_nil, hplaces]
  rfl

/-- A class with a class inside it that it calls. -/
def oneInner : String :=
  "class T \x7b
 class H \x7b static fn m() -> int \x7b return 1; \x7d \x7d
 static fn g() -> int \x7b return H.m(); \x7d
\x7d
"

/-- A method of a program: the number of its class, its name, and what its expressions call. -/
structure Called where
  owner : TypeId
  name : String
  targets : List (Option (TypeId × String))
deriving DecidableEq

/-- What was found in a source, the names and paths of its classes, and what its methods call. -/
structure Summary where
  found : List Diagnostic
  names : List String
  paths : List String
  methods : List Called
deriving DecidableEq

def summary (refs : ReferenceSet) (source : List Char) (file : Syntax.File) : Summary :=
  let (p, found) := resolve refs (LineIndex.ofSource source) file
  { found, names := Place.names file.places, paths := file.places.map Place.path
    methods := p.methods.map fun m => ⟨m.owner, m.signature.name, m.evaluated.map (Expr.target? p)⟩ }

namespace Summary

variable {refs : ReferenceSet} {source : List Char} {file : Syntax.File} {t : Summary}
  (h : summary refs source file = t) {i : Nat} {q : Place}

include h

theorem name_of_place (hq : file.places[i]? = some q) : t.names[i]? = some q.declaration.name.text := by
  rw [← h]
  change (file.places.map fun p => p.declaration.name.text)[i]? = _
  rw [List.getElem?_map, hq, Option.map_some]

theorem path_of_place (hq : file.places[i]? = some q) : t.paths[i]? = some q.path := by
  rw [← h]
  change (file.places.map Place.path)[i]? = _
  rw [List.getElem?_map, hq, Option.map_some]

theorem called_of_method {m : Method}
    (hm : m ∈ (resolve refs (LineIndex.ofSource source) file).1.methods) :
    ⟨m.owner, m.signature.name,
      m.evaluated.map (Expr.target? (resolve refs (LineIndex.ofSource source) file).1)⟩ ∈ t.methods :=
  h ▸ List.mem_map_of_mem hm

end Summary

/-- The only call in it keeps to the nesting. -/
theorem qualified_calls_inner : ∃ c file,
    compile ⟨Catalog.standard.libraries⟩ {} oneInner.toList = .ok c ∧
      Syntax.parse oneInner.toList = .ok file ∧
      EveryQualified oneInner.toList file c.program (CallsNested file.places c.program) := by
  have hread : (Syntax.parse oneInner.toList).toOption.map
      (summary ⟨Catalog.standard.libraries⟩ oneInner.toList) =
        some ⟨[], ["T", "H"], ["T", "T.H"], [⟨0, "g", [some (1, "m")]⟩, ⟨1, "m", [none]⟩]⟩ := by
    decide +kernel
  cases hparse : Syntax.parse oneInner.toList with
  | error ds =>
    rw [hparse] at hread
    cases hread
  | ok file =>
    rw [hparse] at hread
    have hsummary := Option.some.inj hread
    have hnames : Place.names file.places = ["T", "H"] := congrArg Summary.names hsummary
    have hcompile := compile_of_nothing {} hparse (congrArg Summary.found hsummary)
    refine ⟨_, file, hcompile, rfl, ?_⟩
    obtain ⟨file', hparse', -, -, hnested⟩ := qualified_calls hcompile
    obtain rfl := Except.ok.inj (hparse.symm.trans hparse')
    refine hnested fun place hplace inner hinner j hj => ?_
    have hname : ["T", "H"][j]? = some inner.name.text := Summary.name_of_place hsummary hj
    rw [Place.names, List.map_take, ← Place.names, hnames]
    match j, hname with
    | 0, _ => exact List.not_mem_nil
    | 1, hname =>
      have hH : inner.name.text = "H" := (Option.some.inj hname).symm
      rw [hH]
      decide

/-- Two classes of one name, inside classes next to one another, of which the second calls its own. -/
def twoInner : String :=
  "class T \x7b
 class A \x7b class H \x7b static fn m() -> int \x7b return 1; \x7d \x7d \x7d
 class B \x7b
  class H \x7b static fn m() -> int \x7b return 2; \x7d \x7d
  static fn g() -> int \x7b return H.m(); \x7d
 \x7d
\x7d
"

/-- The class inside the other class is called. -/
theorem qualified_call_missed : ∃ c file,
    compile ⟨Catalog.standard.libraries⟩ {} twoInner.toList = .ok c ∧
      Syntax.parse twoInner.toList = .ok file ∧
      summary ⟨Catalog.standard.libraries⟩ twoInner.toList file =
        { found := [], names := ["T", "A", "H", "B", "H"]
          paths := ["T", "T.A", "T.A.H", "T.B", "T.B.H"]
          methods := [⟨2, "m", [none]⟩, ⟨3, "g", [some (2, "m")]⟩, ⟨4, "m", [none]⟩] } ∧
      ¬ EveryQualified twoInner.toList file c.program (CallsNested file.places c.program) := by
  have hread : (Syntax.parse twoInner.toList).toOption.map
      (summary ⟨Catalog.standard.libraries⟩ twoInner.toList) =
        some ⟨[], ["T", "A", "H", "B", "H"], ["T", "T.A", "T.A.H", "T.B", "T.B.H"],
          [⟨2, "m", [none]⟩, ⟨3, "g", [some (2, "m")]⟩, ⟨4, "m", [none]⟩]⟩ := by
    decide +kernel
  have hcall : (Syntax.parse twoInner.toList).toOption.bind (fun file => file.places[3]?.bind fun p =>
      p.declaration.methods[0]?.bind fun m => p.declaration.nested[0]?.map fun inner =>
        (m.name.text, m.evaluated.map Situated.qualified?, inner.name.text)) =
      some ("g", [some ("H", "m")], "H") := by
    decide +kernel
  cases hparse : Syntax.parse twoInner.toList with
  | error ds =>
    rw [hparse] at hread
    cases hread
  | ok file =>
    rw [hparse] at hread hcall
    have hsummary := Option.some.inj hread
    simp only [Except.toOption, Option.bind_some, Option.bind_eq_some_iff, Option.map_eq_some_iff,
      Prod.mk.injEq] at hcall
    obtain ⟨place, hplace, m, hm, inner, hinner, hname, hcalls, hH⟩ := hcall
    refine ⟨_, file, compile_of_nothing {} hparse (congrArg Summary.found hsummary), rfl, hsummary,
      fun hevery => ?_⟩
    obtain ⟨m', hm', howner, hname', hall⟩ := hevery 3 place hplace m (List.mem_of_getElem? hm)
    have hcalled := Summary.called_of_method hsummary hm'
    rw [howner, hname', hname] at hcalled
    obtain ⟨site, hsite, hqualified⟩ := List.map_eq_singleton_iff.mp hcalls
    obtain ⟨e, he, htarget⟩ : ∃ e, m'.evaluated = [e] ∧ e.target? _ = some (2, "m") :=
      List.map_eq_singleton_iff.mp (by simpa using hcalled)
    rw [hsite, he] at hall
    obtain ⟨-, hnested⟩ := (List.forall₂_cons.mp hall).1
    obtain ⟨j, hj, hmeant⟩ := hnested "H" "m" hqualified inner (List.mem_of_getElem? hinner) hH
    obtain ⟨rfl, -⟩ := Prod.mk.inj (Option.some.inj (htarget.symm.trans hmeant))
    -- The class that is called has another path than the class inside.
    have hB : "T.B" = place.path := Option.some.inj (Summary.path_of_place hsummary hplace)
    have hpath : "T.A.H" = place.path ++ "." ++ inner.name.text :=
      Option.some.inj (Summary.path_of_place hsummary hj)
    rw [← hB, hH] at hpath
    exact absurd hpath (by decide)

end Program

end ReportTemplate
