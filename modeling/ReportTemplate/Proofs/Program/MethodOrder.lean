import ReportTemplate.Proofs.Grammar.Nesting
import ReportTemplate.Proofs.Program.Rearranged
import ReportTemplate.Proofs.Report.Faults

/-!
# ReportTemplate.Proofs.Program.MethodOrder — the order of methods does not matter

A source that has been read and one whose methods stand in another order have the same diagnostics unless
one of them has an error, and then both do.  Calls go to methods under other numbers, but their runs are
the same, and so is the method that a report begins with.
-/

namespace ReportTemplate

/-! ### Spans of methods -/

/-- Neither span goes over a place of the other. -/
def Span.Clear (s t : Span) : Prop := s.stop ≤ t.start ∨ t.stop ≤ s.start

namespace Syntax

section

variable {source : List Char} {file : File}

/-- The methods in a class lie in its span, and their spans are clear of one another. -/
theorem File.Has.methods_clear (h : parse source = .ok file) : ∀ c : Class, file.Has (.classDecl c) →
    (c.allMethods.Pairwise fun m n => m.span.Clear n.span) ∧
      ∀ m ∈ c.allMethods, c.span.start ≤ m.span.start ∧ m.span.stop ≤ c.span.stop := by
  intro c
  induction c using Class.insideOut with
  | h c ih =>
    intro hc
    obtain ⟨-, -, hinside, hordered, -⟩ := (spans_nest h).1 _ hc
    have hmember : ∀ x ∈ c.members, file.Has (.ofMember x) := fun x hx =>
      hc.part (List.mem_cons_of_mem _ (List.mem_map_of_mem hx))
    -- What a member brings lies in the span of the member.
    have hbrings : ∀ x ∈ c.members,
        ((Class.memberMethods x).Pairwise fun m n => m.span.Clear n.span) ∧
          ∀ m ∈ Class.memberMethods x, (Element.ofMember x).span.start ≤ m.span.start ∧
            m.span.stop ≤ (Element.ofMember x).span.stop := by
      intro x hx
      cases x with
      | inl m => exact ⟨List.pairwise_singleton _ _, List.forall_mem_singleton.mpr ⟨le_rfl, le_rfl⟩⟩
      | inr i => exact ih i (List.mem_filterMap.mpr ⟨_, hx, rfl⟩) (hmember _ hx)
    have hpairs : (c.members.flatMap Class.memberMethods).Pairwise fun m n => m.span.Clear n.span := by
      refine List.pairwise_flatMap.mpr ⟨fun x hx => (hbrings x hx).1, ?_⟩
      refine (List.pairwise_map.mp (List.pairwise_cons.mp hordered).2).imp_of_mem ?_
      intro x y hx hy hxy m hm n hn
      have hm' := ((hbrings x hx).2 m hm).2
      have hn' := ((hbrings y hy).2 n hn).1
      exact .inl (hm'.trans (hxy.trans hn'))
    refine ⟨c.allMethods_perm.symm.pairwise hpairs fun hmn => hmn.symm, fun m hm => ?_⟩
    obtain ⟨x, hx, hm⟩ := List.mem_flatMap.mp (c.allMethods_perm.mem_iff.mp hm)
    obtain ⟨hstart, hstop⟩ := hinside _ (List.mem_cons_of_mem _ (List.mem_map_of_mem hx))
    obtain ⟨hstart', hstop'⟩ := (hbrings x hx).2 m hm
    exact ⟨hstart.trans hstart', hstop'.trans hstop⟩

/-- The spans of the methods of a source are clear of one another. -/
theorem methods_clear (h : parse source = .ok file) :
    file.methods.Pairwise fun m n => m.span.Clear n.span := by
  refine List.pairwise_flatMap.mpr ⟨fun c hc => (File.Has.methods_clear h c (.classDecl hc)).1, ?_⟩
  refine (spans_nest h).2.imp_of_mem fun {c d} hc hd hcd m hm n hn => ?_
  have hm' := ((File.Has.methods_clear h c (.classDecl hc)).2 m hm).2
  have hn' := ((File.Has.methods_clear h d (.classDecl hd)).2 n hn).1
  exact .inl (hm'.trans (hcd.trans hn'))

end

end Syntax

namespace Program

/-! ### Reports about methods -/

section

variable {source : List Char} {file : Syntax.File}

/-- Whatever is found in a method begins inside its span. -/
theorem found_inside (h : Syntax.parse source = .ok file) (refs : ReferenceSet) (lines : LineIndex)
    (declared : Declarations) {m : Pending} (hm : m.declaration ∈ file.methods) :
    ∀ d ∈ (resolveMethod refs lines declared m).2,
      m.declaration.span.start ≤ d.span.start ∧ d.span.start < m.declaration.span.stop := by
  intro d hd
  obtain ⟨c, hc, hm⟩ := List.mem_flatMap.mp hm
  obtain ⟨u, hu, hspelled⟩ := Syntax.Class.Holds.method c
    (Syntax.File.among_of_derives (Syntax.derives_of_parse h) c hc) _ hm
  obtain ⟨⟨t', v', hinfix, hspan⟩, -⟩ := foundAt_resolveMethod refs lines declared hspelled.spans d hd
  obtain ⟨t, v, rfl, hwhole⟩ := hspelled.whole
  have horder := (Syntax.inOrder_lex source).mono hu
  obtain ⟨hstart, hstop⟩ := horder.cover_infix hinfix
  have hlt := (horder.mono hinfix).cover_lt
  rw [hspan, hwhole]
  exact ⟨hstart, hlt.trans_le hstop⟩

/-- Nothing is found at the same place in two methods whose spans are clear of one another. -/
theorem found_apart (h : Syntax.parse source = .ok file) (refs : ReferenceSet) (lines : LineIndex)
    (declared : Declarations) {m n : Pending} (hm : m.declaration ∈ file.methods)
    (hn : n.declaration ∈ file.methods) (hclear : m.declaration.span.Clear n.declaration.span)
    (place : Nat) :
    ((resolveMethod refs lines declared m).2.filter fun d => d.span.start = place) = [] ∨
      ((resolveMethod refs lines declared n).2.filter fun d => d.span.start = place) = [] := by
  by_contra hboth
  rw [not_or] at hboth
  obtain ⟨a, ha⟩ := List.exists_mem_of_ne_nil _ hboth.1
  obtain ⟨b, hb⟩ := List.exists_mem_of_ne_nil _ hboth.2
  obtain ⟨ha, hplace⟩ := List.mem_filter.mp ha
  obtain ⟨hb, hplace'⟩ := List.mem_filter.mp hb
  have hinside := found_inside h refs lines declared hm a ha
  have hinside' := found_inside h refs lines declared hn b hb
  have hplace := of_decide_eq_true hplace
  have hplace' := of_decide_eq_true hplace'
  rcases hclear with hclear | hclear <;> omega

/-- Lists of which at most one is not empty can be joined in any order. -/
theorem flatMap_eq_of_perm {α β : Type} {f : α → List β} {l m : List α} (h : l.Perm m)
    (hpairs : l.Pairwise fun a b => f a = [] ∨ f b = []) : l.flatMap f = m.flatMap f := by
  induction h with
  | nil => rfl
  | cons a _ ih => rw [List.flatMap_cons, List.flatMap_cons, ih (List.pairwise_cons.mp hpairs).2]
  | swap a b l =>
    rcases (List.pairwise_cons.mp hpairs).1 a List.mem_cons_self with h | h <;> simp [h]
  | trans h _ ih ih' =>
    rw [ih hpairs, ih' (h.pairwise hpairs fun hab => hab.symm)]

end

/-! ### Sources whose methods stand in another order -/

section

variable {refs : ReferenceSet} (lines : LineIndex) {source : List Char} {file file' : Syntax.File}

/-- When nothing is reported about the declarations, all that is found is found in the methods. -/
theorem found_resolve (h : (declarations refs file).found = []) : (resolve refs lines file).2 =
    (declarations refs file).methods.flatMap fun m =>
      (resolveMethod refs lines (declarations refs file) m).2 := by
  show (declarations refs file).found ++ _ = _
  rw [h, List.nil_append, List.flatMap_map]

theorem apart_declarations (hparse : Syntax.parse source = .ok file)
    (hclean : Clean (declarations refs file).found) :
    (declarations refs file).methods.Pairwise Apart := by
  obtain ⟨hplain, -⟩ := Syntax.method_of_parse hparse
  obtain ⟨-, ts, ms, hspaced, -⟩ := Declare.spaced_classes refs file.classes [] hplain {} hclean
  have hmethods : (declarations refs file).methods = ms := hspaced.methods.trans (List.nil_append ms)
  rw [hmethods]
  exact hspaced.apart

section

variable (hparse : Syntax.parse source = .ok file)
  (h : Mirrored (declarations refs file) (declarations refs file'))

include hparse h

theorem Mirrored.apart_of_parse : (declarations refs file).methods.Pairwise Apart :=
  apart_declarations hparse (h.silent.1 ▸ nofun)

/-- What is found in the other source, method by method. -/
theorem found_mirrored : (resolve refs lines file').2 =
    (declarations refs file').methods.flatMap fun m =>
      (resolveMethod refs lines (declarations refs file) m).2 := by
  have hnumbers := h.renumbered (h.apart_of_parse hparse)
  have hbodies (m : Pending) := resolveMethod_renumber hnumbers refs lines m
  rw [found_resolve lines h.silent.2]
  simp only [hbodies]

theorem found_perm : (resolve refs lines file).2.Perm (resolve refs lines file').2 := by
  rw [found_resolve lines h.silent.1, found_mirrored lines hparse h]
  exact h.methods.flatMap_right _

theorem byPlace_found : byPlace (resolve refs lines file').2 = byPlace (resolve refs lines file).2 := by
  refine byPlace_congr fun place => ?_
  rw [found_resolve lines h.silent.1, found_mirrored lines hparse h, List.filter_flatMap, List.filter_flatMap]
  refine (flatMap_eq_of_perm h.methods ?_).symm
  have hclean : Clean (declarations refs file).found := h.silent.1 ▸ nofun
  obtain ⟨hdeclared, -⟩ := declarations_clean hclean
  have hclear := Syntax.methods_clear hparse
  rw [← hdeclared, List.pairwise_map] at hclear
  exact hclear.imp_of_mem fun {m n} hm hn hmn => found_apart hparse refs lines _
    (hdeclared ▸ List.mem_map_of_mem hm) (hdeclared ▸ List.mem_map_of_mem hn) hmn place

theorem renumbered_resolve : (resolve refs lines file).1.Renumbered
    ((declarations refs file).number (declarations refs file')) (resolve refs lines file').1 := by
  have hapart := h.apart_of_parse hparse
  refine ⟨h.types, fun id => ?_, fun t ht => h.perm_number hapart ht⟩
  show (((declarations refs file').methods.map _).map Prod.fst)[_]? =
    ((((declarations refs file).methods.map _).map Prod.fst)[id]?).map _
  simp only [List.getElem?_map, h.get hapart, Option.map_map]
  congr 1
  funext m
  exact congrArg Prod.fst (resolveMethod_renumber (h.renumbered hapart) refs lines m)

end

theorem mirrored_of_clean (h : file.Rearranged file') (hclean : Clean (declarations refs file').found) :
    Mirrored (declarations refs file) (declarations refs file') := by
  have hback := mirrored_declarations h.symm hclean
  exact mirrored_declarations h (hback.silent.2 ▸ nofun)

end

/-! ### Warnings and entry points -/

/-- Two sources in which the same is found compile with the same warnings, or fail with the same
diagnostics. -/
theorem ofFile_warnings {refs : ReferenceSet} {source : List Char} {file file' : Syntax.File}
    (h : byPlace (resolve refs (.ofSource source) file').2 =
      byPlace (resolve refs (.ofSource source) file).2) (policy : WarningPolicy) :
    (ofFile refs policy source file').map Compiled.warnings =
      (ofFile refs policy source file).map Compiled.warnings := by
  unfold ofFile
  dsimp only
  rw [← apply_byPlace, ← apply_byPlace, h]
  split <;> rfl

/-- Two programs begin alike: neither has an entry point, for the same reason; or both begin with the same
declared method, and all their runs are the same. -/
inductive BeginAlike (d e : Declarations) :
    Except EntryPointError EntryPoint → Except EntryPointError EntryPoint → Prop
  | error {x y : EntryPointError} (alike : x.Alike y) : BeginAlike d e (.error x) (.error y)
  | ok {p q : EntryPoint} (declared : ∃ m, d.methods[p.id]? = some m ∧ e.methods[q.id]? = some m)
      (name : q.name = p.name) (takesDirectory : q.takesDirectory = p.takesDirectory)
      (invoke : ∀ (steps : Nat) (directory : String) (world : Machine.World),
        q.invoke steps directory world = p.invoke steps directory world) :
      BeginAlike d e (.ok p) (.ok q)

theorem beginAlike_mirrored {refs : ReferenceSet} {lines : LineIndex} {source : List Char}
    {file file' : Syntax.File} (hparse : Syntax.parse source = .ok file)
    (h : Mirrored (declarations refs file) (declarations refs file')) :
    BeginAlike (declarations refs file) (declarations refs file')
      (EntryPoint.ofProgram (resolve refs lines file).1)
      (EntryPoint.ofProgram (resolve refs lines file').1) := by
  have hnumbers := renumbered_resolve lines hparse h
  obtain ⟨hok, herror⟩ := EntryPoint.ofProgram_renumber hnumbers
  cases hp : EntryPoint.ofProgram (resolve refs lines file).1 with
  | error x =>
    obtain ⟨y, hy, halike⟩ := herror x hp
    rw [hy]
    exact .error halike
  | ok p =>
    obtain ⟨t, ht⟩ := EntryPoint.mem_candidates_of_ofProgram hp
    obtain ⟨hprogram, hmethod, -⟩ := EntryPoint.of_mem_candidates ht
    have hdeclared : ∃ m, (declarations refs file).methods[p.id]? = some m := by
      change (((declarations refs file).methods.map _).map Prod.fst)[p.id]? = _ at hmethod
      rw [List.getElem?_map, List.getElem?_map, Option.map_map, Option.map_eq_some_iff] at hmethod
      obtain ⟨m, hm, -⟩ := hmethod
      exact ⟨m, hm⟩
    obtain ⟨m, hm⟩ := hdeclared
    rw [hok p hp]
    refine .ok ⟨m, hm, ?_⟩ ?_ rfl (EntryPoint.invoke_renumber hnumbers hprogram)
    · exact (h.get (h.apart_of_parse hparse) p.id).trans hm
    · unfold EntryPoint.name
      rw [hprogram]
      exact Machine.qualifiedName_renumber hnumbers p.method

/-- **The order of methods does not matter**: of a source that has been read and one whose methods stand in
another order, either both have an error or neither has.  If they have none, the same warnings are
reported in the same order, whatever a policy makes of them.  Both or neither have an entry point; it is
the same method, and its runs on a directory, a document and a log are the same. -/
theorem order_irrelevant (refs : ReferenceSet) {source : List Char} {file file' : Syntax.File}
    (hparse : Syntax.parse source = .ok file) (h : file.Rearranged file') :
    (Clean (resolve refs (.ofSource source) file).2 ↔
        Clean (resolve refs (.ofSource source) file').2) ∧
      (Clean (resolve refs (.ofSource source) file).2 →
        byPlace (resolve refs (.ofSource source) file').2 =
            byPlace (resolve refs (.ofSource source) file).2 ∧
          (∀ policy, (ofFile refs policy source file').map Compiled.warnings =
            (ofFile refs policy source file).map Compiled.warnings) ∧
          BeginAlike (declarations refs file) (declarations refs file')
            (EntryPoint.ofProgram (resolve refs (.ofSource source) file).1)
            (EntryPoint.ofProgram (resolve refs (.ofSource source) file').1)) := by
  refine ⟨⟨fun hclean => ?_, fun hclean => ?_⟩, fun hclean => ?_⟩
  · have hperm := found_perm (.ofSource source) hparse
      (mirrored_declarations h (clean_declarations hclean))
    exact fun d hd => hclean d (hperm.mem_iff.mpr hd)
  · have hperm := found_perm (.ofSource source) hparse
      (mirrored_of_clean h (clean_declarations hclean))
    exact fun d hd => hclean d (hperm.mem_iff.mp hd)
  · have hmirrored := mirrored_declarations h (clean_declarations hclean)
    have hfound := byPlace_found (.ofSource source) hparse hmirrored
    exact ⟨hfound, ofFile_warnings hfound, beginAlike_mirrored hparse hmirrored⟩

/-- An entry point in front of the method that it calls, with a warning in each. -/
def callsBelow : String :=
  "class T \x7b
 static fn fill(document: Document, log: fn(int, string, any)) \x7b
  let spare = twice(2);
 \x7d
 static fn twice(n: int) -> int \x7b
  let idle = n;
  return n * 2;
 \x7d
\x7d
"

def unusedSpare : Diagnostic :=
  { code := .unusedVariable, message := "unused variable 'spare'", span := ⟨81, 86⟩ }

def unusedIdle : Diagnostic :=
  { code := .unusedVariable, message := "unused variable 'idle'", span := ⟨142, 146⟩ }

/-- What is found in a source, and the number of its entry point. -/
def outcome (file : Syntax.File) : List Diagnostic × Option MethodId :=
  let r := resolve ⟨Catalog.standard.libraries⟩ (.ofSource callsBelow.toList) file
  (r.2, (EntryPoint.ofProgram r.1).toOption.map EntryPoint.id)

/-- With its methods turned around the source has the warnings in the other order and another number for
the entry point, but it reports the same and begins alike. -/
theorem order_irrelevant_turned : ∃ file, Syntax.parse callsBelow.toList = .ok file ∧
    file.Rearranged file.turned ∧ outcome file = ([unusedSpare, unusedIdle], some 0) ∧
    outcome file.turned = ([unusedIdle, unusedSpare], some 1) ∧
    byPlace (outcome file.turned).1 = [unusedSpare, unusedIdle] ∧
    BeginAlike (declarations ⟨Catalog.standard.libraries⟩ file)
      (declarations ⟨Catalog.standard.libraries⟩ file.turned)
      (EntryPoint.ofProgram (resolve ⟨Catalog.standard.libraries⟩ (.ofSource callsBelow.toList) file).1)
      (EntryPoint.ofProgram
        (resolve ⟨Catalog.standard.libraries⟩ (.ofSource callsBelow.toList) file.turned).1) := by
  have houtcome : (Syntax.parse callsBelow.toList).toOption.map (fun file =>
      (outcome file, outcome file.turned)) =
        some (([unusedSpare, unusedIdle], some 0), ([unusedIdle, unusedSpare], some 1)) := by
    decide +kernel
  cases hparse : Syntax.parse callsBelow.toList with
  | error ds =>
    rw [hparse] at houtcome
    cases houtcome
  | ok file =>
    rw [hparse] at houtcome
    obtain ⟨hplain, hturned⟩ := Prod.mk.inj (Option.some.inj houtcome)
    have hfound : (resolve ⟨Catalog.standard.libraries⟩ (.ofSource callsBelow.toList) file).2 =
        [unusedSpare, unusedIdle] := congrArg Prod.fst hplain
    have hclean : Clean (resolve ⟨Catalog.standard.libraries⟩ (.ofSource callsBelow.toList) file).2 := by
      rw [hfound]
      show ∀ d ∈ [unusedSpare, unusedIdle], d.severity = .warning
      decide
    obtain ⟨hreported, -, hbegin⟩ :=
      (order_irrelevant ⟨Catalog.standard.libraries⟩ hparse file.rearranged_turned).2 hclean
    refine ⟨file, rfl, file.rearranged_turned, hplain, hturned, ?_, hbegin⟩
    have hplaces : byPlace [unusedSpare, unusedIdle] = [unusedSpare, unusedIdle] := by
      simp [byPlace, List.mergeSort, unusedSpare, unusedIdle]
    rw [← hplaces, ← hfound]
    exact hreported

end Program

end ReportTemplate
