import ReportTemplate.Proofs.Machine.Safety
import ReportTemplate.Proofs.Program.Lines
import ReportTemplate.Proofs.Program.Names
import ReportTemplate.Proofs.Program.Origins
import ReportTemplate.Proofs.Program.Ranges

/-!
# ReportTemplate.Proofs.Report.Faults — the place that a failure names

A run that fails names the method of the innermost call, which no other method shares its name with, and
the line of the source on which the first token stands of the expression or statement that has failed
there.  The opening parentheses in front of an expression do not count.
-/

namespace ReportTemplate

open Text (byteSize)

/-! ### Names and spans of methods -/

namespace Syntax

section

variable {source : List Char}

/-- An identifier holds no points. -/
theorem undotted_of_ident {name : Ident} (h : Named (lex source) name) :
    Program.Undotted name.text := by
  obtain ⟨t, ht, htoken⟩ := h
  obtain ⟨-, text, after, -, -, -, hspells, -⟩ := (Lexer.tiled_locate source 0).located t ht
  rw [htoken] at hspells
  generalize hident : Token.ident name.text = token at hspells
  cases hspells with
  | ident htext _ =>
    obtain ⟨c, u, hc, hu, rfl⟩ := Lexer.mem_one_mul.mp htext
    rw [Token.ident.inj hident, Program.Undotted, String.toList_ofList]
    intro hdot
    rcases List.mem_cons.mp hdot with rfl | hdot
    · exact absurd hc (by decide)
    · exact absurd (hu _ hdot) (by decide)
  | _ => cases hident

/-- The last of some tokens in order ends behind all of them. -/
theorem stop_le_cover {t : Located} {v : List Located}
    (hordered : (t :: v).Pairwise fun x y => x.span.stop ≤ y.span.start)
    (hforward : ∀ x ∈ t :: v, x.span.start ≤ x.span.stop) :
    ∀ x ∈ t :: v, x.span.stop ≤ (cover t v).stop := by
  induction v generalizing t with
  | nil =>
    intro x hx
    obtain rfl := List.mem_singleton.mp hx
    exact Nat.le_refl _
  | cons t' v ih =>
    obtain ⟨hfirst, hrest⟩ := List.pairwise_cons.mp hordered
    obtain ⟨-, hforward'⟩ := List.forall_mem_cons.mp hforward
    have hlater := ih hrest hforward'
    have hlast : (cover t (t' :: v)).stop = (cover t' v).stop := by
      rw [← List.nil_append (t' :: v), cover_append]
    rw [hlast]
    refine List.forall_mem_cons.mpr ⟨?_, hlater⟩
    calc t.span.stop ≤ t'.span.start := hfirst t' List.mem_cons_self
      _ ≤ t'.span.stop := hforward' t' List.mem_cons_self
      _ ≤ (cover t' v).stop := hlater t' List.mem_cons_self

/-- A span of some of the tokens lies within the span of all of them. -/
theorem covered_bounds {t : Located} {v : List Located} (hrow : t :: v <:+: lex source) {s : Span}
    (hs : Covered (t :: v) s) : t.span.start ≤ s.start ∧ s.stop ≤ (cover t v).stop := by
  have hordered := (Lexer.tiled_locate source 0).ordered.sublist hrow.sublist
  have hforward : ∀ x ∈ t :: v, x.span.start ≤ x.span.stop := fun x hx =>
    (within_of_mem_lex (hrow.subset hx)).ordered
  obtain ⟨t', v', hpart, rfl⟩ := hs
  refine ⟨?_, stop_le_cover hordered hforward _ (hpart.subset (getLast_mem t' v'))⟩
  rcases List.mem_cons.mp (hpart.subset List.mem_cons_self) with heq | hmem
  · rw [cover, heq]
  · have hafter := (List.pairwise_cons.mp hordered).1 t' hmem
    exact (hforward t List.mem_cons_self).trans hafter

/-- The methods of a source have names without points, and what is inside one lies between its ends. -/
theorem method_of_parse {file : File} (h : parse source = .ok file) :
    (∀ c ∈ file.classes, Program.Declare.Plain c) ∧
      ∀ d ∈ file.methods, Program.Undotted d.name.text ∧
        ∀ node : Node, node.Inside d.body → node.span.Within source ∧
          d.span.start ≤ node.span.start ∧ node.span.stop ≤ d.span.stop := by
  have hclasses := File.among_of_derives (derives_of_parse h)
  refine ⟨fun c hc => ?_, fun d hd => ?_⟩
  · exact Class.Holds.mono (fun _ hname => undotted_of_ident hname) (fun _ _ => trivial) c
      (hclasses c hc)
  · obtain ⟨c, hc, hd⟩ := List.mem_flatMap.mp hd
    obtain ⟨u, hu, hspelled⟩ := Class.Holds.method c (hclasses c hc) d hd
    refine ⟨undotted_of_ident (hspelled.name.mono hu), fun node hnode => ?_⟩
    have hcovered : Covered u node.span := (hnode.spans hspelled.spans.body).whole
    obtain ⟨t, v, rfl, hwhole⟩ := hspelled.whole
    rw [hwhole]
    exact ⟨within_of_covered (hcovered.mono hu), covered_bounds hu hcovered⟩

end

end Syntax

/-! ### Failures -/

namespace Machine

open Program (MethodId Method Origin StandsOn declarations)

/-- A failure names the method `id` of a program and the line of something in its body, which comes from
a node of the method's declaration in the source. -/
structure Failure.Names (f : Failure) (refs : ReferenceSet) (source : List Char) (file : Syntax.File)
    (p : Program) (id : MethodId) (m : Method) (n : Node) (d : Syntax.Method) (node : Syntax.Node) :
    Prop where
  method : p.methods[id]? = some m
  name : f.method = p.qualifiedName m
  unique : ∀ (id' : MethodId) (m' : Method), p.methods[id']? = some m' →
    p.qualifiedName m' = f.method → id' = id
  declared : file.methods[id]? = some d
  inside : node.Inside d.body
  origin : Origin ⟨refs, .ofSource (LogCall.expand source), declarations refs file, m.owner⟩ node n
  line : StandsOn source node.element f.line
  first : (LineIndex.ofSource (LogCall.expand source)).line d.span.start ≤ f.line
  last : f.line ≤ (LineIndex.ofSource (LogCall.expand source)).line d.span.stop

section

variable {refs : ReferenceSet} {policy : WarningPolicy} {source : List Char} {c : Compiled}

theorem nodup_of_compile (h : Program.compile refs policy source = .ok c) :
    (c.program.methods.map c.program.qualifiedName).Nodup := by
  obtain ⟨file, hparse, hprogram, hclean⟩ := Program.compile_ok h
  obtain ⟨hplain, hmethods⟩ := Syntax.method_of_parse hparse
  rw [hprogram]
  exact Program.nodup_qualifiedName hclean hplain fun m hm => (hmethods m hm).1

/-- A method that is told by its name is the only one of that name. -/
theorem eq_of_qualifiedName {p : Program} (h : (p.methods.map p.qualifiedName).Nodup)
    {id id' : MethodId} {m m' : Method} (hm : p.methods[id]? = some m)
    (hm' : p.methods[id']? = some m') (hname : p.qualifiedName m' = p.qualifiedName m) : id' = id := by
  have hlt : id' < (p.methods.map p.qualifiedName).length := by
    rw [List.length_map]
    exact (List.getElem?_eq_some_iff.mp hm').1
  refine (List.getElem?_inj hlt h).mp ?_
  rw [List.getElem?_map, List.getElem?_map, hm', hm, Option.map_some, Option.map_some, hname]

/-- A failure that is raised in a run of a source that compiles names its place. -/
theorem Raised.names (h : Program.compile refs policy (LogCall.expand source) = .ok c)
    {file : Syntax.File} (hparse : Syntax.parse (LogCall.expand source) = .ok file)
    {steps depth : Nat} {start : MethodId} {args : List Value} {world w : World} {m : Method}
    {n : Node} {f : Failure}
    (hraised : Raised c.program steps depth start args world m n (.failed f) w) :
    ∃ id d node, f.Names refs source file c.program id m n d node := by
  obtain ⟨file', hparse', hprogram, hclean⟩ := Program.compile_ok h
  obtain rfl := Except.ok.inj (hparse.symm.trans hparse')
  obtain ⟨hname, hline⟩ := hraised.place
  obtain ⟨_, id, _, _, s, t, hm, hreaches, -⟩ := hraised.innermost
  have hm' := hm
  rw [hprogram] at hm'
  obtain ⟨pending, hpending, himplements⟩ := Program.implements_of_getElem? hclean hm'
  obtain ⟨v, hbody, -⟩ := himplements.body
  obtain ⟨node, hinside, horigin⟩ := hbody.origin hreaches
  have hdeclared : file.methods[id]? = some pending.declaration := by
    have hlist := (Program.declarations_clean (Program.clean_declarations hclean)).1
    rw [← hlist, List.getElem?_map, hpending]
    rfl
  have hmem := List.mem_of_getElem? hdeclared
  obtain ⟨hwithin, hstart, hstop⟩ := ((Syntax.method_of_parse hparse).2 _ hmem).2 node hinside
  have hnumber : f.line = (LineIndex.ofSource (LogCall.expand source)).line node.span.start :=
    hline.trans horigin.line
  refine ⟨id, pending.declaration, node, hm, hname, fun id' m' hm' hsame => ?_, hdeclared, hinside,
    ?_, ?_, ?_, ?_⟩
  · exact eq_of_qualifiedName (nodup_of_compile h) hm hm' (hsame.trans hname)
  · rw [himplements.owner]
    exact horigin
  · rw [hnumber, ← node.span_element]
    exact Program.standsOn hparse (hinside.has (Syntax.File.has_method _ hmem))
  · rw [hnumber]
    exact LineIndex.line_mono _ hstart
  · rw [hnumber]
    exact LineIndex.line_mono _ (hwithin.ordered.trans hstop)

end

/-- A run of the entry point that fails is raised in the program. -/
theorem raised_of_entryPoint {p : Program} {e : EntryPoint} (he : EntryPoint.ofProgram p = .ok e)
    {steps : Nat} {directory : String} {world w : World} {f : Failure}
    (h : e.invoke steps directory world = .error (.failed f) w) :
    ∃ m n, Raised p steps (maxCallDepth - 1) e.id (e.args directory) world m n (.failed f) w := by
  obtain ⟨t, ht⟩ := EntryPoint.mem_candidates_of_ofProgram he
  unfold EntryPoint.invoke at h
  rw [(EntryPoint.of_mem_candidates ht).1] at h
  have hsound : Halt.failed f ≠ .broken := nofun
  exact raised_of_invoke hsound _ h

/-- **Failures name their place**: the methods of a source that compiles have different names.  When a
run of its entry point fails, the failure names the innermost method of the calls that are active, and
the line of the source on which the first token of the expression or statement of this method's body
stands that has failed.  The opening parentheses with which the tokens of an expression begin do not
count.  The line lies between the first and the last one of the method. -/
theorem failure_names_place {refs : ReferenceSet} {policy : WarningPolicy} {source : List Char}
    {c : Compiled} (h : Program.compile refs policy (LogCall.expand source) = .ok c) :
    (c.program.methods.map c.program.qualifiedName).Nodup ∧
    ∃ file, Syntax.parse (LogCall.expand source) = .ok file ∧
      ∀ (e : EntryPoint), EntryPoint.ofProgram c.program = .ok e →
        ∀ (steps : Nat) (directory : String) (world w : World) (f : Failure),
          e.invoke steps directory world = .error (.failed f) w →
            ∃ id m n d node, f.Names refs source file c.program id m n d node ∧
              Raised c.program steps (maxCallDepth - 1) e.id (e.args directory) world m n
                (.failed f) w := by
  obtain ⟨file, hparse, -⟩ := Program.compile_ok h
  refine ⟨nodup_of_compile h, file, hparse, fun e he steps directory world w f hfails => ?_⟩
  obtain ⟨m, n, hraised⟩ := raised_of_entryPoint he hfails
  obtain ⟨id, d, node, hnames⟩ := hraised.names h hparse
  exact ⟨id, m, n, d, node, hnames, hraised⟩

/-- How the first run of the entry point of a source fails. -/
def failure? (refs : ReferenceSet) (source : List Char) : Option Failure :=
  (Program.compile refs {} (LogCall.expand source)).toOption.bind fun c =>
    (EntryPoint.ofProgram c.program).toOption.bind fun e =>
      match e.invoke 0 "" {} with
      | .error (.failed f) _ => some f
      | _ => none

theorem fails_of_failure? {refs : ReferenceSet} {source : List Char} {f : Failure}
    (h : failure? refs source = some f) : ∃ c e w,
      Program.compile refs {} (LogCall.expand source) = .ok c ∧
      EntryPoint.ofProgram c.program = .ok e ∧ e.invoke 0 "" {} = .error (.failed f) w := by
  unfold failure? at h
  cases hc : Program.compile refs {} (LogCall.expand source) with
  | error found =>
    rw [hc] at h
    cases h
  | ok c =>
    rw [hc] at h
    dsimp only [Except.toOption, Option.bind_some] at h
    cases he : EntryPoint.ofProgram c.program with
    | error found =>
      rw [he] at h
      cases h
    | ok e =>
      rw [he] at h
      dsimp only [Option.bind_some] at h
      split at h
      next f' w hrun =>
        obtain rfl := Option.some.inj h
        exact ⟨c, e, w, rfl, he, hrun⟩
      next => cases h

/-- A method that divides by zero in the last of three lines, called by the entry point. -/
def dividing : List Char :=
  "class T \x7b static fn fill(d: Document, log: fn(any)) \x7b
    log(1);
    T.ratio(0); \x7d
  static fn ratio(n: int) \x7b
    let m = 2 * (
      1 / n); \x7d
  \x7d".toList

theorem failure?_dividing :
    failure? countingRefs dividing = some ⟨"T.ratio", 6, .refused .divisionByZero⟩ := by
  unfold dividing
  rw [String.toList_ofList]
  decide +kernel

theorem failure_names_place_dividing : ∃ c, Program.compile countingRefs {}
    (LogCall.expand dividing) = .ok c ∧
    ∃ file id m n d node, Failure.Names ⟨"T.ratio", 6, .refused .divisionByZero⟩ countingRefs dividing
      file c.program id m n d node := by
  obtain ⟨c, e, w, hc, he, hrun⟩ := fails_of_failure? failure?_dividing
  obtain ⟨-, file, -, hplace⟩ := failure_names_place hc
  obtain ⟨id, m, n, d, node, hnames, -⟩ := hplace e he 0 "" {} w _ hrun
  exact ⟨c, hc, file, id, m, n, d, node, hnames⟩

/-! ### Opening parentheses -/

/-- The quotient of a body that does no more than to name it. -/
def quotient? : List Syntax.Stmt → Option (Span × (Span × Syntax.Literal) × Span × Syntax.Literal)
  | [.declare _ _ (.binary span .div (.literal left a) (.literal right b))] =>
    some (span, (left, a), right, b)
  | _ => none

section

variable {body : List Syntax.Stmt} {span left right : Span} {a b : Syntax.Literal}

theorem declares_of_quotient? (h : quotient? body = some (span, (left, a), right, b)) :
    ∃ s name, body =
      [.declare s name (.binary span .div (.literal left a) (.literal right b))] := by
  unfold quotient? at h
  split at h
  next => cases h; exact ⟨_, _, rfl⟩
  next => cases h

/-- Inside such a body stand its statement, the quotient and two literals. -/
theorem inside_quotient {s : Span} {name : Syntax.Ident} {node : Syntax.Node} (h : node.Inside
      [.declare s name (.binary span .div (.literal left a) (.literal right b))]) :
    node = .stmt (.declare s name (.binary span .div (.literal left a) (.literal right b))) ∨
      node = .value (.binary span .div (.literal left a) (.literal right b)) ∨
      ∃ place value, node = .value (.literal place value) := by
  induction h with
  | stmt mem => exact .inl (congrArg _ (List.mem_singleton.mp mem))
  | part _ part ih =>
    rcases ih with rfl | rfl | ⟨place, value, rfl⟩
    · cases part
      exact .inr (.inl rfl)
    · cases part with
      | left => exact .inr (.inr ⟨_, _, rfl⟩)
      | right => exact .inr (.inr ⟨_, _, rfl⟩)
      | leftTruth logical => simp at logical
      | rightTruth logical => simp at logical
    · cases part

/-- Of what is inside such a body only the quotient can fail. -/
theorem eq_quotient_of_stops (h : quotient? body = some (span, (left, a), right, b))
    {node : Syntax.Node} (hinside : node.Inside body) {S : Program.Surroundings} {n : Node}
    (horigin : Origin S node n) {f : Frame} {s t : State} {k : Halt} (hstops : Stops f n s k t) :
    node = .value (.binary span .div (.literal left a) (.literal right b)) := by
  obtain ⟨_, _, rfl⟩ := declares_of_quotient? h
  rcases inside_quotient hinside with rfl | hnode | ⟨place, value, rfl⟩
  · cases horigin with
    | stmt hresolves =>
      cases hresolves
      cases hstops
  · exact hnode
  · cases horigin with
    | value hresolves =>
      cases hresolves
      cases hstops

end

/-- A source whose only statement fails.  The left operand of the quotient stands on the line behind its
opening parenthesis. -/
def wrapped : List Char :=
  "class T \x7b\n static fn fill(document: Document, log: fn(any)) \x7b
  let _x = (\n   1) / 0;\n \x7d\n\x7d\n".toList

theorem failure?_wrapped : failure? ⟨Catalog.standard.libraries⟩ wrapped =
    some ⟨"T.fill", 4, .refused .divisionByZero⟩ := by
  unfold wrapped
  rw [String.toList_ofList]
  decide +kernel

theorem quotient?_wrapped : (Syntax.parse (LogCall.expand wrapped)).toOption.map (fun file =>
    file.methods.map fun d => quotient? d.body) =
      some [some (⟨91, 97⟩, (⟨91, 92⟩, .int 1), ⟨96, 97⟩, .int 0)] := by
  unfold wrapped
  rw [String.toList_ofList]
  decide +kernel

/-- The tokens of the quotient. -/
def quotientRow : List Located :=
  [⟨.symbol .parenOpen, ⟨86, 87⟩⟩, ⟨.int 1, ⟨91, 92⟩⟩, ⟨.symbol .parenClose, ⟨92, 93⟩⟩,
    ⟨.symbol .slash, ⟨94, 95⟩⟩, ⟨.int 0, ⟨96, 97⟩⟩]

theorem quotientRow_derives : Syntax.Derives Syntax.Grammar.expr quotientRow
    (.binary ⟨91, 97⟩ .div (.literal ⟨91, 92⟩ (.int 1)) (.literal ⟨96, 97⟩ (.int 0))) :=
  Syntax.Grammar.derives_quotient rfl rfl rfl rfl rfl

theorem quotientRow_run : quotientRow <:+: lex (LogCall.expand wrapped) := by
  have hrow : ((lex (LogCall.expand wrapped)).drop 26).take 5 = quotientRow := by
    unfold wrapped
    rw [String.toList_ofList]
    decide +kernel
  rw [← hrow]
  exact (List.take_prefix _ _).isInfix.trans (List.drop_suffix _ _).isInfix

/-- The quotient has failed.  Its tokens begin on the third line, and the failure names the fourth. -/
theorem failure_names_place_wrapped : ∃ c e w,
    Program.compile ⟨Catalog.standard.libraries⟩ {} (LogCall.expand wrapped) = .ok c ∧
    EntryPoint.ofProgram c.program = .ok e ∧
    e.invoke 0 "" {} = .error (.failed ⟨"T.fill", 4, .refused .divisionByZero⟩) w ∧
    ∃ file id m n d quotient,
      Failure.Names ⟨"T.fill", 4, .refused .divisionByZero⟩ ⟨Catalog.standard.libraries⟩ wrapped file
        c.program id m n d (.value quotient) ∧
      Raised c.program 0 (maxCallDepth - 1) e.id (e.args "") {} m n
        (.failed ⟨"T.fill", 4, .refused .divisionByZero⟩) w ∧
      ∃ t v, t :: v <:+: lex (LogCall.expand wrapped) ∧
        Syntax.Derives Syntax.Grammar.expr (t :: v) quotient ∧
        LogCall.OnLine wrapped t.span.start 3 := by
  obtain ⟨c, e, w, hc, he, hrun⟩ := fails_of_failure? failure?_wrapped
  obtain ⟨file, hparse, -⟩ := Program.compile_ok hc
  obtain ⟨m, n, hraised⟩ := raised_of_entryPoint he hrun
  obtain ⟨id, d, node, hnames⟩ := hraised.names hc hparse
  have hquotient : quotient? d.body =
      some (⟨91, 97⟩, (⟨91, 92⟩, .int 1), ⟨96, 97⟩, .int 0) := by
    have hfound := quotient?_wrapped
    rw [hparse] at hfound
    have hmethods : file.methods.map (fun d => quotient? d.body) =
        [some (⟨91, 97⟩, (⟨91, 92⟩, .int 1), ⟨96, 97⟩, .int 0)] := Option.some.inj hfound
    refine List.mem_singleton.mp ?_
    rw [← hmethods]
    exact List.mem_map_of_mem (List.mem_of_getElem? hnames.declared)
  obtain ⟨_, _, _, _, _, _, _, _, hstops⟩ := hraised.innermost
  obtain rfl := eq_quotient_of_stops hquotient hnames.inside hnames.origin hstops
  refine ⟨c, e, w, hc, he, hrun, file, id, m, n, d, _, hnames, hraised, _, _, quotientRow_run,
    quotientRow_derives, ?_⟩
  have hline : (LineIndex.ofSource (LogCall.expand wrapped)).line 86 = 3 := by
    unfold wrapped
    rw [String.toList_ofList]
    decide +kernel
  rw [← hline]
  exact Program.onLine_token (quotientRow_run.subset List.mem_cons_self)

end Machine

end ReportTemplate
