import ReportTemplate.Proofs.Grammar.Members
import ReportTemplate.Proofs.Program.InRange

/-!
# ReportTemplate.Proofs.Program.Names — every method has a name of its own

A class has its name behind the names of the classes around it, with points between them.  No two classes
inside one class, or at the top level, share a name, and no two methods of one class do, so the names of
methods with the paths of their classes are all different.
-/

namespace ReportTemplate.Program

/-! ### Paths -/

/-- A name without points. -/
def Undotted (name : String) : Prop := '.' ∉ name.toList

/-- A path goes on behind another one, if at all, with a point. -/
def Below (path : String) (p : String) : Prop :=
  ∃ rest, p.toList = path.toList ++ rest ∧ ∀ c ∈ rest.head?, c = '.'

/-- The path of a class inside another one, or at the top level. -/
def pathOf (parent : Option String) (name : String) : String :=
  match parent with
  | some parent => parent ++ "." ++ name
  | none => name

theorem Below.refl (path : String) : Below path path := ⟨[], (List.append_nil _).symm, nofun⟩

theorem below_member (path name : String) : Below path (path ++ "." ++ name) :=
  ⟨'.' :: name.toList, by simp, fun _ h => (Option.some.inj h).symm⟩

theorem Below.trans {p q r : String} (h : Below p q) (h' : Below q r) : Below p r := by
  obtain ⟨u, hu, hhead⟩ := h
  obtain ⟨v, hv, hhead'⟩ := h'
  refine ⟨u ++ v, by rw [hv, hu, List.append_assoc], ?_⟩
  cases u with
  | nil => exact hhead'
  | cons c u => exact hhead

/-- What stands in front of the first point, or of the end. -/
theorem takeWhile_undotted {u rest : List Char} (hu : '.' ∉ u) (hrest : ∀ c ∈ rest.head?, c = '.') :
    (u ++ rest).takeWhile (· ≠ '.') = u := by
  have hall : ∀ c ∈ u, decide (c ≠ '.') = true := fun c hc =>
    decide_eq_true fun hdot => hu (hdot ▸ hc)
  rw [List.takeWhile_append_of_pos hall]
  cases rest with
  | nil => rw [List.takeWhile_nil, List.append_nil]
  | cons c rest =>
    obtain rfl := hrest c rfl
    rw [List.takeWhile_cons_of_neg (by simp), List.append_nil]

/-- Nothing is below two classes next to one another. -/
theorem Below.sibling {parent : Option String} {a b p : String} (ha : Undotted a) (hb : Undotted b)
    (hpa : Below (pathOf parent a) p) (hpb : Below (pathOf parent b) p) : a = b := by
  obtain ⟨u, hu, hheadu⟩ := hpa
  obtain ⟨v, hv, hheadv⟩ := hpb
  have hparts : a.toList ++ u = b.toList ++ v := by
    rw [hu] at hv
    cases parent with
    | none => exact hv
    | some parent =>
      simp only [pathOf, String.toList_append, List.append_assoc] at hv
      exact List.append_cancel_left (List.append_cancel_left hv)
  have hsame := congrArg (List.takeWhile (· ≠ '.')) hparts
  rw [takeWhile_undotted ha hheadu, takeWhile_undotted hb hheadv] at hsame
  exact String.toList_inj.mp hsame

/-- A name behind the last point is told by the whole. -/
theorem qualified_inj {p q a b : String} (ha : Undotted a) (hb : Undotted b)
    (h : p ++ "." ++ a = q ++ "." ++ b) : p = q ∧ a = b := by
  have hlists := congrArg (fun s : String => s.toList.reverse) h
  simp only [String.toList_append, List.reverse_append] at hlists
  have hname := congrArg (List.takeWhile (· ≠ '.')) hlists
  have ha' : '.' ∉ a.toList.reverse := fun h => ha (List.mem_reverse.mp h)
  have hb' : '.' ∉ b.toList.reverse := fun h => hb (List.mem_reverse.mp h)
  have hdot : ∀ (x : String), ∀ c ∈ (".".toList.reverse ++ x.toList.reverse).head?, c = '.' :=
    fun _ _ hc => (Option.some.inj hc).symm
  rw [takeWhile_undotted ha' (hdot p), takeWhile_undotted hb' (hdot q)] at hname
  obtain rfl := String.toList_inj.mp (List.reverse_inj.mp hname)
  have hpath := List.append_cancel_left (List.append_cancel_left hlists)
  exact ⟨String.toList_inj.mp (List.reverse_inj.mp hpath), rfl⟩

/-! ### What is declared -/

/-- Two methods of one class have different names. -/
def Apart (m m' : Pending) : Prop := m.owner = m'.owner → m.signature.name ≠ m'.signature.name

/-- Classes with different paths have been added, and methods of theirs that are apart. -/
structure Spaced (d e : Declarations) (ts : List TypeInfo) (ms : List Pending) : Prop where
  types : e.types = d.types ++ ts
  methods : e.methods = d.methods ++ ms
  paths : (ts.map TypeInfo.path).Nodup
  apart : ms.Pairwise Apart
  owners : ∀ m ∈ ms, d.types.length ≤ m.owner ∧ d.types.length + ts.length > m.owner

theorem Spaced.nothing {d : Declarations} : Spaced d d [] [] :=
  ⟨(List.append_nil _).symm, (List.append_nil _).symm, List.nodup_nil, .nil, nofun⟩

theorem Spaced.trans {d e f : Declarations} {ts us : List TypeInfo} {ms ns : List Pending}
    (h : Spaced d e ts ms) (h' : Spaced e f us ns)
    (hpaths : ∀ t ∈ ts, ∀ u ∈ us, t.path ≠ u.path) : Spaced d f (ts ++ us) (ms ++ ns) := by
  have hlength : e.types.length = d.types.length + ts.length := by
    rw [h.types, List.length_append]
  refine ⟨?_, ?_, ?_, ?_, fun m hm => ?_⟩
  · rw [h'.types, h.types, List.append_assoc]
  · rw [h'.methods, h.methods, List.append_assoc]
  · rw [List.map_append, List.nodup_append]
    refine ⟨h.paths, h'.paths, fun p hp q hq => ?_⟩
    obtain ⟨t, ht, rfl⟩ := List.mem_map.mp hp
    obtain ⟨u, hu, rfl⟩ := List.mem_map.mp hq
    exact hpaths t ht u hu
  · refine List.pairwise_append.mpr ⟨h.apart, h'.apart, fun m hm n hn howner => ?_⟩
    have hm' := (h.owners m hm).2
    have hn' := (h'.owners n hn).1
    rw [howner] at hm'
    omega
  · rw [List.length_append]
    rcases List.mem_append.mp hm with hm | hm
    · have hm' := h.owners m hm
      omega
    · have hm' := h'.owners m hm
      omega

namespace Declare

variable (refs : ReferenceSet)

theorem contains_eq_false {seen : List String} {name : String} (h : ¬ seen.contains name = true) :
    name ∉ seen := fun hmem => h (List.contains_iff_mem.mpr hmem)

/-- The methods that have been added for a class have different names, none of them seen before. -/
theorem declares_methods_apart (owner : TypeId) (path : String) (ms : List Syntax.Method)
    (seen : List String) : Declares (methods refs owner path seen ms) fun d _ e =>
      ∃ new, e.types = d.types ∧ e.methods = d.methods ++ new ∧
        (new.map fun m => m.signature.name).Nodup ∧
        ∀ m ∈ new, m.owner = owner ∧ m.signature.name ∉ seen := by
  intro d hclean
  obtain ⟨hd, hfresh, hsignatures⟩ := fresh_of_clean refs hclean
  rw [methods_of_fresh refs owner path hfresh hsignatures]
  refine ⟨hd, _, rfl, rfl, ?_, fun m hm => ?_⟩
  · rw [List.map_map]
    simpa [Function.comp_def, pendingOf, signatureOf_name] using hfresh.1
  · obtain ⟨m', hm', rfl⟩ := List.mem_map.mp hm
    refine ⟨rfl, ?_⟩
    show (signatureOf refs m').name ∉ seen
    rw [signatureOf_name]
    exact hfresh.2 m' hm'

/-- The classes `types` are below classes of a parent whose names have not been seen before. -/
def BelowUnseen (parent : Option String) (seen : List String) (types : List TypeInfo) : Prop :=
  ∀ t ∈ types, ∃ name, name ∉ seen ∧ Undotted name ∧ Below (pathOf parent name) t.path

/-- A class and the ones next to it that come later have nothing below them in common. -/
theorem BelowUnseen.ne {parent : Option String} {name : String} {seen : List String}
    {ts us : List TypeInfo} (hname : Undotted name) (hts : ∀ t ∈ ts, Below (pathOf parent name) t.path)
    (hus : BelowUnseen parent (name :: seen) us) : ∀ t ∈ ts, ∀ u ∈ us, t.path ≠ u.path := by
  intro t ht u hu hpath
  obtain ⟨other, hunseen, hother, hbelow⟩ := hus u hu
  rw [← hpath] at hbelow
  exact hunseen ((hts t ht).sibling hname hother hbelow ▸ List.mem_cons_self)

/-- One class and then the ones next to it. -/
theorem BelowUnseen.cons {parent : Option String} {name : String} {seen : List String}
    {ts us : List TypeInfo} (hunseen : name ∉ seen) (hname : Undotted name)
    (hts : ∀ t ∈ ts, Below (pathOf parent name) t.path)
    (hus : BelowUnseen parent (name :: seen) us) : BelowUnseen parent seen (ts ++ us) := by
  intro t ht
  rcases List.mem_append.mp ht with ht | ht
  · exact ⟨name, hunseen, hname, hts t ht⟩
  · obtain ⟨other, hother, hundotted, hbelow⟩ := hus t ht
    exact ⟨other, fun hmem => hother (List.mem_cons_of_mem _ hmem), hundotted, hbelow⟩

/-- A class whose methods have been added. -/
theorem spaced_class {d e f : Declarations} {t : TypeInfo} {new : List Pending}
    (htypes : e.types = d.types) (hmethods : e.methods = d.methods ++ new)
    (hnames : (new.map fun m => m.signature.name).Nodup)
    (howner : ∀ m ∈ new, m.owner = d.types.length) (htypes' : f.types = e.types ++ [t])
    (hmethods' : f.methods = e.methods) : Spaced d f [t] new := by
  refine ⟨htypes'.trans (by rw [htypes]), hmethods'.trans hmethods, List.pairwise_singleton _ _, ?_, ?_⟩
  · have hapart : ∀ {m m' : Pending}, m.signature.name ≠ m'.signature.name → Apart m m' :=
      fun hne _ => hne
    exact (List.pairwise_map.mp hnames).imp hapart
  · intro m hm
    rw [howner m hm, List.length_singleton]
    exact ⟨Nat.le_refl _, Nat.lt_succ_self _⟩

/-- The names of classes hold no points. -/
abbrev Plain (c : Syntax.Class) : Prop := c.Holds (fun name => Undotted name.text) fun _ => True

mutual

theorem spaced_classDecl : ∀ (parent : Option String) (c : Syntax.Class), Plain c →
    Declares (classDecl refs parent c) fun d _ e => ∃ ts ms, Spaced d e ts ms ∧
      ∀ t ∈ ts, Below (pathOf parent c.name.text) t.path
  | parent, .mk span name members, hplain => by
    have hadd (t : TypeInfo) : Declares (modify fun d => { d with types := d.types ++ [t] })
        fun d _ e => e.types = d.types ++ [t] ∧ e.methods = d.methods :=
      fun d hclean => ⟨hclean, rfl, rfl⟩
    refine (Declares.get.bind fun d => (declares_methods_apart refs d.types.length _
      (members.filterMap Sum.getLeft?) []).bind fun ids =>
        (hadd ⟨name.text, _, parent.isSome, ids⟩).bind fun _ =>
          spaced_nested (pathOf parent name.text) [] members hplain.2).mono ?_
    rintro d _ e ⟨_, _, ⟨rfl, rfl⟩, ids, d₁, ⟨new, ht, hm, hnames, hnew⟩, _, d₂,
      ⟨htypes, hmethods⟩, ts, ms, hspaced, hbelow⟩
    have hfirst := spaced_class ht hm hnames (fun m hm => (hnew m hm).1) htypes hmethods
    have hinner : ∀ t ∈ ts, ∃ inner, Below (pathOf parent name.text ++ "." ++ inner) t.path := by
      intro t ht
      obtain ⟨inner, -, -, hbelow⟩ := hbelow t ht
      exact ⟨inner, hbelow⟩
    refine ⟨_, _, hfirst.trans hspaced ?_, List.forall_mem_append.mpr ⟨?_, fun t ht => ?_⟩⟩
    · -- The path of a class inside is longer.
      refine List.forall_mem_singleton.mpr fun u hu hpath => ?_
      obtain ⟨inner, rest, hrest, -⟩ := hinner u hu
      have hlength := congrArg List.length hrest
      rw [← hpath] at hlength
      change (pathOf parent name.text).toList.length = _ at hlength
      simp only [String.toList_append, List.length_append] at hlength
      have hdot : (".".toList).length = 1 := rfl
      omega
    · exact List.forall_mem_singleton.mpr (.refl _)
    · obtain ⟨inner, hbelow⟩ := hinner t ht
      exact (below_member _ inner).trans hbelow

theorem spaced_nested : ∀ (path : String) (seen : List String)
    (members : List (Syntax.Method ⊕ Syntax.Class)),
    Syntax.Class.AllHold (fun name => Undotted name.text) (fun _ => True) members →
      Declares (nested refs path seen members) fun d _ e => ∃ ts ms, Spaced d e ts ms ∧
        BelowUnseen (some path) seen ts
  | _, _, [], _ => by
    refine (Declares.pure ()).mono ?_
    rintro d _ e ⟨-, rfl⟩
    exact ⟨[], [], .nothing, nofun⟩
  | path, seen, .inl _ :: members, hplain => spaced_nested path seen members hplain.2
  | path, seen, .inr (.mk span name inner) :: members, hplain => by
    have hrest := (spaced_classDecl (some path) (.mk span name inner) hplain.1).bind fun _ =>
      spaced_nested path (name.text :: seen) members hplain.2
    unfold nested
    split
    · exact declares_refused rfl _ _ (fun _ => hrest) _
    next hseen =>
      refine hrest.mono ?_
      rintro d _ e ⟨_, _, ⟨ts, ms, h₁, hts⟩, us, ns, h₂, hus⟩
      exact ⟨_, _, h₁.trans h₂ (BelowUnseen.ne hplain.1.1 hts hus),
        BelowUnseen.cons (contains_eq_false hseen) hplain.1.1 hts hus⟩

end

theorem spaced_classes : ∀ (cs : List Syntax.Class) (seen : List String), (∀ c ∈ cs, Plain c) →
    Declares (classes refs seen cs) fun d _ e => ∃ ts ms, Spaced d e ts ms ∧
      BelowUnseen none seen ts
  | [], _, _ => by
    refine (Declares.pure ()).mono ?_
    rintro d _ e ⟨-, rfl⟩
    exact ⟨[], [], .nothing, nofun⟩
  | .mk span name members :: cs, seen, hplain => by
    obtain ⟨hc, hcs⟩ := List.forall_mem_cons.mp hplain
    have hrest := (spaced_classDecl refs none (.mk span name members) hc).bind fun _ =>
      spaced_classes cs (name.text :: seen) hcs
    unfold classes
    split
    · exact declares_refused rfl _ _ (fun _ => hrest) _
    next hseen =>
      refine hrest.mono ?_
      rintro d _ e ⟨_, _, ⟨ts, ms, h₁, hts⟩, us, ns, h₂, hus⟩
      exact ⟨_, _, h₁.trans h₂ (BelowUnseen.ne hc.1 hts hus),
        BelowUnseen.cons (contains_eq_false hseen) hc.1 hts hus⟩

end Declare

/-! ### The methods of a program -/

section

variable {refs : ReferenceSet} {lines : LineIndex} {file : Syntax.File}

/-- **Names of methods**: when a source resolves without an error and its names hold no points, no two
of its methods have the same name with the path of their class. -/
theorem nodup_qualifiedName (h : Clean (resolve refs lines file).2)
    (hclasses : ∀ c ∈ file.classes, Declare.Plain c)
    (hmethods : ∀ m ∈ file.methods, Undotted m.name.text) :
    ((resolve refs lines file).1.methods.map (resolve refs lines file).1.qualifiedName).Nodup := by
  obtain ⟨-, ts, ms, hspaced, -⟩ :=
    Declare.spaced_classes refs file.classes [] hclasses {} (clean_declarations h)
  have htypes : (declarations refs file).types = ts := hspaced.types.trans (List.nil_append ts)
  have hlist : (declarations refs file).methods = ms := hspaced.methods.trans (List.nil_append ms)
  obtain ⟨hdeclared, hlisted⟩ := declarations_clean (clean_declarations h)
  rw [List.Nodup, List.pairwise_map]
  refine List.pairwise_map.mpr (List.pairwise_map.mpr ?_)
  rw [hlist]
  refine hspaced.apart.imp_of_mem fun {m m'} hm hm' hapart hsame => ?_
  rw [← hlist] at hm hm'
  have hundotted : ∀ m ∈ (declarations refs file).methods, Undotted m.signature.name := by
    intro m hm
    obtain ⟨i, hi⟩ := List.mem_iff_getElem?.mp hm
    rw [(hlisted i m hi).1.name]
    exact hmethods _ (hdeclared ▸ List.mem_map_of_mem hm)
  have hpath : ∀ m ∈ (declarations refs file).methods,
      ∃ t, ts[m.owner]? = some t ∧ t.path = (((resolve refs lines file).1.types[m.owner]?).map
        TypeInfo.path).getD "" := by
    intro m hm
    obtain ⟨i, hi⟩ := List.mem_iff_getElem?.mp hm
    obtain ⟨-, t, ht, -⟩ := hlisted i m hi
    refine ⟨t, htypes ▸ ht, ?_⟩
    show _ = (((declarations refs file).types[m.owner]?).map TypeInfo.path).getD ""
    rw [ht]
    rfl
  obtain ⟨hpaths, hname⟩ := qualified_inj (hundotted m hm) (hundotted m' hm') hsame
  obtain ⟨t, ht, hpath₁⟩ := hpath m hm
  obtain ⟨t', ht', hpath₂⟩ := hpath m' hm'
  refine hapart ?_ hname
  have htypesPath : t.path = t'.path := hpath₁.trans (hpaths.trans hpath₂.symm)
  have hget : (ts.map TypeInfo.path)[m.owner]? = (ts.map TypeInfo.path)[m'.owner]? := by
    rw [List.getElem?_map, List.getElem?_map, ht, ht']
    exact congrArg some htypesPath
  have hlt : m.owner < (ts.map TypeInfo.path).length := by
    rw [List.length_map]
    exact (List.getElem?_eq_some_iff.mp ht).1
  exact (List.getElem?_inj hlt hspaced.paths).mp hget

end

end ReportTemplate.Program
