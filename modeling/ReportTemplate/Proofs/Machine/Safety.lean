import ReportTemplate.Library.Standard
import ReportTemplate.Proofs.Machine.Counts
import ReportTemplate.Proofs.Scoped.Meaning

/-!
# ReportTemplate.Proofs.Machine.Safety — runs of compiled programs stay in range

A source that compiles gives a program whose indices are in range, and a run from an entry point of it
uses no slot, method or argument that is not there, nor a slot that has no value yet.
-/

namespace ReportTemplate

open Program (Declarations Pending MethodId Clean Implements SameOnCounts declarations resolve)

namespace EntryPoint

variable {p : Program} {e : EntryPoint}

/-- An entry point is a method of its program, with the arguments that it asks for. -/
theorem of_mem_candidates {t : Program.TypeInfo} (h : e ∈ candidates p t) :
    e.program = p ∧ p.methods[e.id]? = some e.method ∧
      shape? e.method.signature = some e.takesDirectory := by
  obtain ⟨id, -, hid⟩ := List.mem_filterMap.mp h
  cases hm : p.methods[id]? with
  | none => simp [hm] at hid
  | some m =>
    cases hshape : shape? m.signature with
    | none => simp [hm, hshape] at hid
    | some takesDirectory =>
      simp only [hm, hshape, Option.bind_eq_bind, Option.bind_some, Option.pure_def,
        Option.some.injEq] at hid
      subst hid
      exact ⟨rfl, hm, hshape⟩

theorem mem_candidates_of_ofProgram (h : ofProgram p = .ok e) : ∃ t, e ∈ candidates p t := by
  unfold ofProgram at h
  split at h
  · cases h
  · next t _ =>
    refine ⟨t, ?_⟩
    split at h
    · cases h
    · next e' hcandidates =>
      obtain rfl : e' = e := Except.ok.inj h
      rw [hcandidates]
      exact List.mem_cons_self
    · cases h

theorem length_args (h : shape? e.method.signature = some e.takesDirectory) (directory : String) :
    (e.args directory).length = e.method.signature.params.length := by
  have hparams : e.method.signature.params.length =
      (e.method.signature.params.map Prod.snd).length := (List.length_map Prod.snd).symm
  rw [hparams]
  unfold shape? at h
  unfold args
  split at h
  · split at h
    · next log hlog =>
      split at h
      · rw [← Option.some.inj h, hlog]
        rfl
      · cases h
    · next log hlog =>
      split at h
      · rw [← Option.some.inj h, hlog]
        rfl
      · cases h
    · cases h
  · cases h

theorem declared_of_mem_candidates {refs : ReferenceSet} {lines : LineIndex} {file : Syntax.File}
    (hclean : Clean (resolve refs lines file).2) {t : Program.TypeInfo}
    (h : e ∈ candidates (resolve refs lines file).1 t) (directory : String) :
    e.program = (resolve refs lines file).1 ∧ ∃ m : Pending,
      (declarations refs file).methods[e.id]? = some m ∧
      (e.args directory).length = m.signature.params.length := by
  obtain ⟨hentry, hmethod, hshape⟩ := of_mem_candidates h
  obtain ⟨m, hm, himplements⟩ := Program.implements_of_getElem? hclean hmethod
  refine ⟨hentry, m, hm, ?_⟩
  rw [length_args hshape, himplements.signature]

end EntryPoint

namespace Machine

theorem invoke_not_broken {refs : ReferenceSet} {lines : LineIndex} {file : Syntax.File}
    (hclean : Clean (resolve refs lines file).2) {id : MethodId} {m : Pending}
    (hm : (declarations refs file).methods[id]? = some m) {args : List Value}
    (hargs : m.signature.params.length ≤ args.length) (steps depth : Nat) (world w : World) :
    invoke (resolve refs lines file).1 steps depth id args world ≠ .error .broken w := by
  have hsame := Scoped.sameResult_invoke hclean steps depth hm hargs ⟨world, []⟩
  intro hbroken
  rw [hbroken] at hsame
  exact hsame.ne_broken rfl

/-- **Safety**: when a source compiles against functions that take an argument or more, its program has
the declared methods with their resolved bodies, and everything in it is in range.  No run of an entry
point ends because a slot, a method or a value in a slot is missing, and none depends on what a
function or a document method does with another number of arguments than it takes. -/
theorem compile_safe {refs : ReferenceSet} {policy : WarningPolicy} {source : List Char}
    {c : Compiled} (hrefs : ∀ l ∈ refs.libraries, ∀ g ∈ l.functions, 0 < g.params)
    (h : Program.compile refs policy source = .ok c) :
    (∃ file, Syntax.parse source = .ok file ∧
      (declarations refs file).methods.map Pending.declaration = file.methods ∧
      c.program.methods.length = file.methods.length ∧
      ∀ (id : MethodId) (m' : Program.Method), c.program.methods[id]? = some m' →
        ∃ m, (declarations refs file).methods[id]? = some m ∧
          Implements ⟨refs, LineIndex.ofSource source, declarations refs file, m.owner⟩ m m') ∧
    c.program.InRange ∧
    ∀ (t : Program.TypeInfo) (e : EntryPoint), e ∈ EntryPoint.candidates c.program t →
      ∀ (steps : Nat) (directory : String) (world : World),
        (∀ w, e.invoke steps directory world ≠ .error .broken w) ∧
        ∀ (F : Function → Function) (D : DocumentMethod → DocumentMethod), SameOnCounts F D →
          EntryPoint.invoke { e with program := e.program.replace F D } steps directory world =
            e.invoke steps directory world := by
  obtain ⟨file, hparse, hprogram, hclean⟩ := Program.compile_ok h
  have hinRange := Program.resolve_inRange hclean hrefs
  rw [hprogram]
  have hmethods := (Program.declarations_clean (Program.clean_declarations hclean)).1
  have hlength : (resolve refs (LineIndex.ofSource source) file).1.methods.length =
      file.methods.length := by
    rw [← hmethods, List.length_map]
    show ((List.map _ _).map Prod.fst).length = _
    rw [List.length_map, List.length_map]
  refine ⟨⟨file, hparse, hmethods, hlength,
    fun id m' hm' => Program.implements_of_getElem? hclean hm'⟩, hinRange, ?_⟩
  intro t e he steps directory world
  obtain ⟨hentry, m, hm, hargs⟩ := EntryPoint.declared_of_mem_candidates hclean he directory
  refine ⟨fun w => ?_, fun F D hsame => ?_⟩
  · unfold EntryPoint.invoke
    rw [hentry]
    exact invoke_not_broken hclean hm (Nat.le_of_eq hargs.symm) steps _ world w
  · unfold EntryPoint.invoke
    rw [hentry]
    exact congrFun (congrFun (congrFun (invoke_replace hsame hinRange steps _) e.id) _) world

/-- A source with a loop, a document method and a function that is called on its receiver. -/
def counting : List Char :=
  "class T \x7b static fn f(d: Document, log: fn(int, string, any)) \x7b
    for i in 0..2 \x7b d.paragraph(i.str()); \x7d
  \x7d \x7d".toList

def countingRefs : ReferenceSet := ⟨[.core, .document, .logging]⟩

theorem countingRefs_params : ∀ l ∈ countingRefs.libraries, ∀ g ∈ l.functions, 0 < g.params := by
  decide

theorem counting_compiles : (Program.compile countingRefs {} counting).isOk = true := by
  -- The kernel is slow to decode a text, so its characters are listed first.
  unfold counting
  rw [String.toList_ofList]
  decide +kernel

/-- What a run of it on a document leaves. -/
theorem counting_run : ∃ c v w, Program.compile countingRefs {} counting = .ok c ∧
    invoke c.program 0 0 0 [.document, .null] {} = .ok v w ∧
    w.document.blocks = #[.paragraph "0", .paragraph "1"] ∧ w.log.isEmpty := by
  have hleft : (Program.compile countingRefs {} counting).toOption.bind (fun c =>
      EStateM.run' (do
        let _ ← invoke c.program 0 0 0 [.document, .null]
        let w ← get
        return (w.document.blocks, w.log.isEmpty)) {}) =
      some (#[.paragraph "0", .paragraph "1"], true) := by
    unfold counting
    rw [String.toList_ofList]
    decide +kernel
  cases hc : Program.compile countingRefs {} counting with
  | error found => rw [hc] at hleft; cases hleft
  | ok c =>
    rw [hc] at hleft
    dsimp only [Except.toOption, Option.bind_some, EStateM.run', EStateM.run] at hleft
    cases hrun : invoke c.program 0 0 0 [.document, .null] {} with
    | error k w => rw [Scoped.run_bind_error hrun] at hleft; cases hleft
    | ok v w =>
      rw [Scoped.run_bind_ok hrun] at hleft
      obtain ⟨hblocks, hlog⟩ := Prod.mk.inj (Option.some.inj hleft)
      exact ⟨c, v, w, rfl, hrun, hblocks, hlog⟩

theorem compile_safe_counting :
    (∀ l ∈ countingRefs.libraries, ∀ g ∈ l.functions, 0 < g.params) ∧
    ∃ c, Program.compile countingRefs {} counting = .ok c ∧ c.program.InRange ∧
      c.program.methods.length = 1 := by
  refine ⟨countingRefs_params, ?_⟩
  have hcompiles := counting_compiles
  cases hc : Program.compile countingRefs {} counting with
  | error found => rw [hc] at hcompiles; cases hcompiles
  | ok c =>
    obtain ⟨⟨file, hparse, -, hlength, -⟩, hinRange, -⟩ := compile_safe countingRefs_params hc
    refine ⟨c, rfl, hinRange, ?_⟩
    have hone : (Syntax.parse counting).toOption.map (fun f => f.methods.length) = some 1 := by
      decide +kernel
    rw [hparse] at hone
    rw [hlength]
    exact Option.some.inj hone

end Machine

end ReportTemplate
