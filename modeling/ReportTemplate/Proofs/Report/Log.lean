import ReportTemplate.Proofs.LogCall.Statements
import ReportTemplate.Proofs.Machine.Safety
import ReportTemplate.Proofs.Scoped.Trace
import ReportTemplate.Proofs.Syntax.Grammar
import ReportTemplate.Report

/-!
# ReportTemplate.Proofs.Report.Log — the entries of a report

The log of a report holds an entry for each call of the log, in the order of the calls.  Where the
statements of these calls stand alone on their lines, the entries hold the numbers of the lines in the
source as it was written, the texts of the arguments and their values.
-/

namespace ReportTemplate

open LogCall (Site StandsAlone declares expand recorded recordTokens recorded_append tokensOf_recorded
  upgradeDeclarations opening)
open Lexer (locate pieces tokensOf numeral)
open Program (Clean declarations resolve)
open Scoped (Complete Ends MadeBy Reached Recorded entryOf forget templateOf)
open Text (byteSize)

/-! ### Records in the syntax tree -/

namespace Lexer

/-- Among tokens in order, the one with a given start is behind those in front of this place. -/
theorem suffix_of_start {ts us rest : List Located} {x t : Located} (h : t :: rest <:+ ts ++ x :: us)
    (hfront : ∀ y ∈ ts, y.span.start < t.span.start) (hback : ∀ y ∈ us, t.span.start < y.span.start) :
    rest = us := by
  obtain ⟨front, hfull⟩ := h
  rcases List.append_eq_append_iff.mp hfull with ⟨middle, rfl, hmiddle⟩ | ⟨middle, rfl, hmiddle⟩
  · cases middle with
    | nil => exact (List.cons.inj hmiddle).2
    | cons y middle =>
      obtain rfl := (List.cons.inj hmiddle).1
      exact absurd (hfront t (List.mem_append_right _ List.mem_cons_self)) (Nat.lt_irrefl _)
  · cases middle with
    | nil => exact (List.cons.inj hmiddle).2.symm
    | cons y middle =>
      obtain rfl := (List.cons.inj hmiddle).2
      exact absurd (hback t (List.mem_append_right _ List.mem_cons_self)) (Nat.lt_irrefl _)

/-- Behind the name of a call with a record stand its bracket and the record. -/
theorem tokens_behind_name {u e w : List Char} {number : Nat} {t : Located} {rest : List Located}
    (h : t :: rest <:+ lex (u ++ (recorded number e ++ w))) (hstart : t.span.start = byteSize u) :
    rest.map Located.token = .symbol .parenOpen ::
      (recordTokens ⟨number, 0, e⟩ ++ tokensOf (pieces (e ++ ");".toList ++ w))) := by
  have htext := recorded_append number e w
  generalize Nat.toDigits 10 number ++ _ = v at htext
  have hall : t ∈ locate 0 (pieces (u ++ (opening ++ v))) := by
    rw [← htext]
    exact h.subset List.mem_cons_self
  obtain ⟨ps, hcut⟩ := cut_of_mem_locate hall (by rw [hstart, Nat.zero_add])
  have htokens := tokensOf_recorded hcut number 0 e w
  have hlocated : lex (u ++ (recorded number e ++ w)) = _ :=
    (congrArg (fun s => locate 0 (pieces (u ++ s))) htext).trans (LogCall.locate_call hcut)
  rw [hlocated] at h
  have hrest := suffix_of_start h
    (fun y hy => by
      have hlt := hcut.start_lt hy
      omega)
    (fun y hy => by
      rcases List.mem_cons.mp hy with rfl | hy
      · simp only
        omega
      · have hle := le_start_of_mem_locate hy
        omega)
  have hwhole : tokensOf (pieces (u ++ (recorded number e ++ w))) =
      tokensOf ps ++ .ident "log" :: rest.map Located.token := by
    rw [← locate_tokens 0, hrest]
    refine (congrArg (List.map Located.token) hlocated).trans ?_
    rw [List.map_append, locate_tokens]
    rfl
  rw [htokens] at hwhole
  exact (List.cons.inj (List.append_cancel_left hwhole)).2.symm

end Lexer

namespace Syntax

/-- The number of a record is an integer when no digits of the source are out of range. -/
theorem lt_of_inRange {ts : List Located} {number : Nat} (hmem : numeral number ∈ ts.map Located.token)
    (hrange : ∀ t ∈ ts, Token.isOutOfRange t.token = false) : number < 2 ^ 63 := by
  by_contra hlarge
  obtain ⟨t, ht, htoken⟩ := List.mem_map.mp hmem
  have hnot := hrange t ht
  unfold numeral at htoken
  rw [if_neg hlarge] at htoken
  rw [htoken] at hnot
  have hdigits : (String.ofList (Nat.toDigits 10 number)).toList.all Number.isDigit = true := by
    rw [String.toList_ofList, List.all_eq_true]
    exact fun c hc => Number.isDigit_of_mem_toDigits hc
  exact absurd (hdigits.symm.trans hnot) (by decide)

/-- A call with a record is read with the number and the text in front of its arguments. -/
theorem ReadFrom.literals {u e w : List Char} {number : Nat} {callee : Ident} {args : List Expr}
    (h : ReadFrom (lex (u ++ (recorded number e ++ w))) callee args)
    (hstart : callee.span.start = byteSize u)
    (hrange : ∀ t ∈ lex (u ++ (recorded number e ++ w)), Token.isOutOfRange t.token = false) :
    number < 2 ^ 63 ∧ ∃ s₁ s₂ others, args =
      .literal s₁ (.int (Int64.ofNat number)) :: .literal s₂ (.string (String.ofList e)) :: others := by
  obtain ⟨t, rest, hsuffix, hname, hargs⟩ := h
  have htokens := Lexer.tokens_behind_name hsuffix (hname.symm.trans hstart)
  have hlt : number < 2 ^ 63 := by
    have hmem : numeral number ∈ rest.map Located.token := by
      rw [htokens]
      exact List.mem_cons_of_mem _ List.mem_cons_self
    exact lt_of_inRange hmem fun t ht => hrange t (hsuffix.subset (List.mem_cons_of_mem _ ht))
  have hnumeral : numeral number = .int (Int64.ofNat number) := if_pos hlt
  refine ⟨hlt, hargs _ _ _ _ _ htokens ?_ rfl⟩
  rw [hnumeral]
  rfl

end Syntax

/-! ### Entries -/

/-- The text of an entry about a line, the text of an expression and its value. -/
def entryText (number : Nat) (e : List Char) (v : Value) : String :=
  "#" ++ toString number ++ ": " ++ String.ofList e ++ ": " ++ v.text

theorem entryText_inj {number : Nat} {e e' : List Char} {v : Value} :
    entryText number e v = entryText number e' v ↔ e = e' := by
  refine ⟨fun h => ?_, fun h => by rw [h]⟩
  have hchars := congrArg String.toList h
  unfold entryText at hchars
  simp only [String.toList_append, String.toList_ofList, List.append_assoc] at hchars
  have hbehind := List.append_cancel_left (List.append_cancel_left (List.append_cancel_left hchars))
  exact List.append_cancel_right hbehind

theorem shown_eq {number : Nat} (h : number < 2 ^ 63) (e : List Char) (v : Value) :
    Machine.LogEntry.shown ⟨Int64.ofNat number, String.ofList e, v⟩ = entryText number e v := by
  have hint : (Int64.ofNat number).toInt = number := Int64.toInt_ofNat_of_lt h
  have htext : Value.intText (Int64.ofNat number) = toString number := by
    unfold Value.intText
    rw [hint, Int.natAbs_natCast, if_neg (by omega)]
    rfl
  unfold Machine.LogEntry.shown entryText
  rw [htext]

/-- What a call of the log leaves when its statement stands alone on a line: an entry with the number of
the line, the text of the argument with its short declarations in full, and the value of the argument.
It is the text as it was written unless the line holds a short declaration. -/
def Leaves (source : List Char) (r : Reached) (entry : Machine.LogEntry) : Prop :=
  ∀ number s, StandsAlone source r.callee.span.start number s → ∃ e v,
    upgradeDeclarations s.line = Site.line ⟨s.before, e, s.tail⟩ ∧
    r.args = [.int (Int64.ofNat number), .str (String.ofList e), v] ∧
    entry.shown = entryText number e v ∧
    (entry.shown = entryText number s.argument v ↔ declares s.line = false)

section

variable {source : List Char} {r : Reached}

/-- A call whose statement stands alone has the number of the line and a text in front of the values of
the arguments that it was written with. -/
theorem args_of_standsAlone {file : Syntax.File} (hparse : Syntax.parse (expand source) = .ok file)
    (hmade : MadeBy (Syntax.ReadFrom (lex (expand source))) r) {number : Nat} {s : Site}
    (halone : StandsAlone source r.callee.span.start number s) :
    number < 2 ^ 63 ∧ ∃ e vs, r.args = .int (Int64.ofNat number) :: .str (String.ofList e) :: vs ∧
      upgradeDeclarations s.line = Site.line ⟨s.before, e, s.tail⟩ ∧
      (e = s.argument ↔ declares s.line = false) := by
  obtain ⟨e, ⟨hupgrade, hsame⟩, u, w, htext, hstart⟩ := halone.recorded
  obtain ⟨args, hread, hvalues⟩ := hmade
  have hrange := Syntax.isOutOfRange_of_parse hparse
  rw [htext] at hread hrange
  obtain ⟨hlt, s₁, s₂, others, rfl⟩ := hread.literals hstart hrange
  refine ⟨hlt, e, ?_⟩
  -- The first two arguments are literals, so their values are the number and the text.
  obtain ⟨v₁, vs₁, hv₁, hvs₁, hargs⟩ := List.forall₂_cons_left_iff.mp hvalues
  obtain ⟨v₂, vs, hv₂, -, rfl⟩ := List.forall₂_cons_left_iff.mp hvs₁
  rw [hv₁ _ _ rfl, hv₂ _ _ rfl] at hargs
  exact ⟨vs, hargs, hupgrade, hsame⟩

/-- A number and a text in front of one value make an entry. -/
theorem entryOf_some_iff {n : Int64} {text : String} {vs : List Value}
    (hargs : r.args = .int n :: .str text :: vs) {entry : Machine.LogEntry} :
    entryOf r = some entry ↔ ∃ v, vs = [v] ∧ entry = ⟨n, text, v⟩ := by
  have hr : r = ⟨r.callee, .int n :: .str text :: vs⟩ := by rw [← hargs]
  rw [hr]
  constructor
  · intro h
    rcases vs with _ | ⟨v, _ | ⟨v', vs⟩⟩
    · cases h
    · exact ⟨v, rfl, (Option.some.inj h).symm⟩
    · cases h
  · rintro ⟨v, rfl, rfl⟩
    rfl

theorem leaves_of_entryOf {file : Syntax.File} (hparse : Syntax.parse (expand source) = .ok file)
    (hmade : MadeBy (Syntax.ReadFrom (lex (expand source))) r) {entry : Machine.LogEntry}
    (hentry : entryOf r = some entry) : Leaves source r entry := by
  intro number s halone
  obtain ⟨hlt, e, vs, hargs, hupgrade, hsame⟩ := args_of_standsAlone hparse hmade halone
  obtain ⟨v, rfl, rfl⟩ := (entryOf_some_iff hargs).mp hentry
  refine ⟨e, v, hupgrade, hargs, shown_eq hlt e v, ?_⟩
  rw [shown_eq hlt e v, entryText_inj, hsame]

/-- Calls of the log whose statements stand alone leave an entry if they have one argument. -/
theorem isSome_entryOf {file : Syntax.File} (hparse : Syntax.parse (expand source) = .ok file)
    (hmade : MadeBy (Syntax.ReadFrom (lex (expand source))) r) {number : Nat} {s : Site}
    (halone : StandsAlone source r.callee.span.start number s) :
    (entryOf r).isSome ↔ r.args.length = 3 := by
  obtain ⟨-, e, vs, hargs, -⟩ := args_of_standsAlone hparse hmade halone
  constructor
  · intro hsome
    obtain ⟨entry, hentry⟩ := Option.isSome_iff_exists.mp hsome
    obtain ⟨v, rfl, -⟩ := (entryOf_some_iff hargs).mp hentry
    rw [hargs]
    rfl
  · intro hlength
    rw [hargs] at hlength
    obtain ⟨v, rfl⟩ := List.length_eq_one_iff.mp (Nat.succ.inj (Nat.succ.inj hlength))
    rw [(entryOf_some_iff hargs).mpr ⟨v, rfl, rfl⟩]
    rfl

end

/-! ### Runs -/

/-- What is left at the end of a run of the interpreter. -/
def worldOf {α : Type} : EStateM.Result Machine.Halt Scoped.World α → Scoped.World
  | .ok _ w | .error _ w => w

theorem forall₂_filterMap {α β : Type} {p : α → Bool} {g : α → Option β} {R : α → β → Prop}
    {l : List α} (hsome : ∀ a ∈ l, (g a).isSome ↔ p a) (hR : ∀ a ∈ l, ∀ b ∈ g a, R a b) :
    List.Forall₂ R (l.filter p) (l.filterMap g) := by
  induction l with
  | nil => exact .nil
  | cons a l ih =>
    obtain ⟨ha, hl⟩ := List.forall_mem_cons.mp hsome
    obtain ⟨hRa, hRl⟩ := List.forall_mem_cons.mp hR
    cases hga : g a with
    | none =>
      rw [hga] at ha
      have hno : ¬ p a := fun hp => nomatch ha.mpr hp
      rw [List.filter_cons_of_neg hno, List.filterMap_cons_none hga]
      exact ih hl hRl
    | some b =>
      rw [hga] at ha
      rw [List.filter_cons_of_pos (ha.mp rfl), List.filterMap_cons_some hga]
      exact .cons (hRa b hga) (ih hl hRl)

theorem Scoped.Ends.recorded {P : Syntax.Ident → List Syntax.Expr → Prop} {α : Type}
    {log : List Machine.LogEntry} {Q : α → Prop} {x : EStateM.Result Machine.Halt Scoped.World α}
    (h : Ends P log id Q x) : Recorded P log (worldOf x) := by
  cases x with
  | ok a w => exact h.1.toRecorded
  | error k w => exact h

/-- Every call that reached the log in a run belongs to a statement that stands alone on its line. -/
def AllStandAlone (source : List Char) (w : Scoped.World) : Prop :=
  ∀ r ∈ w.reached, ∃ number s, StandsAlone source r.callee.span.start number s

theorem forall₂_leaves {source : List Char} {file : Syntax.File}
    (hparse : Syntax.parse (expand source) = .ok file) {w : Scoped.World}
    (h : Recorded (Syntax.ReadFrom (lex (expand source))) [] w) (halone : AllStandAlone source w) :
    List.Forall₂ (Leaves source) (w.reached.filter fun r => r.args.length = 3)
      w.left.log.toList := by
  rw [h.entries, List.nil_append]
  refine forall₂_filterMap (fun r hr => ?_) fun r hr entry hentry =>
    leaves_of_entryOf hparse (h.made r hr) hentry
  obtain ⟨number, s, hs⟩ := halone r hr
  rw [isSome_entryOf hparse (h.made r hr) hs, decide_eq_true_eq]

namespace Report

theorem check_ok {settings : Settings} {source : String} {c : Compiled} {entry : EntryPoint}
    (h : check settings source = .ok (c, entry)) : ∃ refs,
      settings.catalog.references = .ok refs ∧
      Program.compile refs settings.warnings (expand source.toList) = .ok c ∧
      EntryPoint.ofProgram c.program = .ok entry := by
  unfold check at h
  cases hcompile : compile settings source with
  | error e => rw [hcompile] at h; cases h
  | ok c' =>
    rw [hcompile] at h
    dsimp only [bind, Except.bind] at h
    cases hentry : EntryPoint.ofProgram c'.program with
    | error e => rw [hentry] at h; cases h
    | ok entry' =>
      rw [hentry] at h
      obtain ⟨rfl, rfl⟩ := Prod.mk.inj (Except.ok.inj h)
      unfold compile at hcompile
      split at hcompile
      · cases hcompile
      · next refs hrefs =>
        split at hcompile
        · cases hcompile
        · next c'' hprogram =>
          obtain rfl := Except.ok.inj hcompile
          exact ⟨refs, hrefs, hprogram, hentry⟩

/-- The run of the entry point of a source by the interpreter of its syntax tree. -/
def interpreted (settings : Settings) (refs : ReferenceSet) (file : Syntax.File) (source : String)
    (entry : EntryPoint) (directory : String) (document : Document) :
    EStateM.Result Machine.Halt Scoped.World Value :=
  Scoped.invoke (templateOf refs (LineIndex.ofSource (expand source.toList)) file) settings.steps
    (Machine.maxCallDepth - 1) entry.id (entry.args directory) ⟨⟨document, #[]⟩, []⟩

section

variable {settings : Settings} {refs : ReferenceSet} {file : Syntax.File} {source : String}
  {entry : EntryPoint} {directory : String} {document : Document}
  (hclean : Clean (resolve refs (LineIndex.ofSource (expand source.toList)) file).2)

include hclean

theorem invoke_eq_interpreted {t : Program.TypeInfo} (hentry : entry ∈ EntryPoint.candidates
    (resolve refs (LineIndex.ofSource (expand source.toList)) file).1 t) :
    entry.invoke settings.steps directory ⟨document, #[]⟩ =
      forget (interpreted settings refs file source entry directory document) := by
  obtain ⟨hprogram, m, hm, hargs⟩ :=
    EntryPoint.declared_of_mem_candidates hclean hentry directory
  unfold EntryPoint.invoke interpreted
  rw [hprogram]
  exact (Scoped.sameCall_invoke hclean settings.steps _ entry.id m _ ⟨⟨document, #[]⟩, []⟩ hm
    hargs).eq_forget

/-- The calls of the log in a run were read from the expanded source. -/
theorem ends_interpreted (hparse : Syntax.parse (expand source.toList) = .ok file) :
    Ends (Syntax.ReadFrom (lex (expand source.toList))) [] id (fun _ => True)
      (interpreted settings refs file source entry directory document) := by
  have hmethods := (Program.declarations_clean (Program.clean_declarations hclean)).1
  have hbodies : ∀ m ∈ (declarations refs file).methods,
      Syntax.Stmt.AllCalls (Syntax.ReadFrom (lex (expand source.toList))) m.declaration.body := by
    intro m hm
    have hmem : m.declaration ∈ file.methods := by
      rw [← hmethods]
      exact List.mem_map_of_mem hm
    exact Syntax.calls_of_parse hparse m.declaration hmem
  have hstart : Complete (Syntax.ReadFrom (lex (expand source.toList))) []
      ⟨⟨document, #[]⟩, []⟩ :=
    ⟨⟨fun _ h => (nomatch h), rfl⟩, fun _ h => nomatch h⟩
  exact Scoped.callKeeps_invoke hbodies settings.steps _ entry.id _ _ hstart

end

/-- **The log of a report**: a source that has an entry point is run as the interpreter runs its syntax
tree.  When every call of the log in the run belongs to a statement that stands alone on its line, the
calls with one argument leave one entry each, in their order, and there are no other entries: an entry
shows the number of the line, the text of the argument and its value, and the text is the one in the
source exactly when the line holds no short declaration.  A run that gives a report has only such calls,
and the report holds these entries. -/
theorem log_of_check {settings : Settings} {source : String} {c : Compiled} {entry : EntryPoint}
    (hcheck : check settings source = .ok (c, entry)) (directory : String) (document : Document) :
    ∃ refs file run, settings.catalog.references = .ok refs ∧
      Syntax.parse (expand source.toList) = .ok file ∧
      run = interpreted settings refs file source entry directory document ∧
      entry.invoke settings.steps directory ⟨document, #[]⟩ = forget run ∧
      (AllStandAlone source.toList (worldOf run) →
        List.Forall₂ (Leaves source.toList)
          ((worldOf run).reached.filter fun r => r.args.length = 3)
          (worldOf run).left.log.toList ∧
        ∀ report, (ofSource settings source directory document).1 = .ok report →
          (∀ r ∈ (worldOf run).reached, r.args.length = 3) ∧
          report.log = (worldOf run).left.log.toList.map Machine.LogEntry.shown) := by
  obtain ⟨refs, hrefs, hcompile, hofProgram⟩ := check_ok hcheck
  obtain ⟨file, hparse, hprogram, hclean⟩ := Program.compile_ok hcompile
  rw [hprogram] at hofProgram
  obtain ⟨t, hentry⟩ := EntryPoint.mem_candidates_of_ofProgram hofProgram
  have hinvoke : entry.invoke settings.steps directory ⟨document, #[]⟩ =
      forget (interpreted settings refs file source entry directory document) :=
    invoke_eq_interpreted hclean hentry
  have hends : Ends _ [] id (fun _ => True)
      (interpreted settings refs file source entry directory document) :=
    ends_interpreted hclean hparse
  refine ⟨refs, file, _, hrefs, hparse, rfl, hinvoke, fun halone => ?_⟩
  generalize interpreted settings refs file source entry directory document = run at *
  refine ⟨forall₂_leaves hparse hends.recorded halone, fun report hreport => ?_⟩
  unfold ofSource at hreport
  rw [hcheck] at hreport
  dsimp only at hreport
  rw [hinvoke] at hreport
  cases run with
  | ok v w =>
    obtain rfl := Except.ok.inj hreport
    refine ⟨fun r hr => ?_, rfl⟩
    obtain ⟨number, s, hs⟩ := halone r hr
    exact (isSome_entryOf hparse (hends.1.made r hr) hs).mp (hends.1.complete r hr)
  | error k w => cases hreport

/-- The places in the expanded source of the calls that reach the log in a run. -/
def reachedAt (settings : Settings) (source : String) : Option (List Nat) :=
  match settings.catalog.references, Syntax.parse (expand source.toList), check settings source with
  | .ok refs, .ok file, .ok (_, entry) =>
    some ((worldOf (interpreted settings refs file source entry "" {})).reached.map
      fun r => r.callee.span.start)
  | _, _, _ => none

/-- A source that logs a text with quotes in each round of a loop. -/
def looping : String :=
  "class T \x7b
  static fn f(d: Document, log: fn(any)) \x7b
    for i in 0..2 \x7b
      log(\"a\\\"\" + i);
    \x7d
  \x7d
\x7d"

theorem looping_standsAlone :
    StandsAlone looping.toList 92 4 ⟨"      ".toList, "\"a\\\"\" + i".toList, []⟩ := by
  unfold looping
  rw [String.toList_ofList]
  exact
    { alone := ⟨List.all_eq_true.mp (by decide), List.all_eq_true.mp (by decide)⟩
      single := by decide
      place := ⟨3, 86, rfl, by decide, by decide, by decide⟩ }

theorem looping_reachedAt : reachedAt { steps := 0 } looping = some [92, 92] := by decide +kernel

theorem log_of_check_looping :
    ∃ c entry, check { steps := 0 } looping = .ok (c, entry) ∧
      ∃ w, AllStandAlone looping.toList w ∧ w.reached.length = 2 ∧
        List.Forall₂ (Leaves looping.toList) (w.reached.filter fun r => r.args.length = 3)
          w.left.log.toList := by
  have hreached := looping_reachedAt
  unfold reachedAt at hreached
  split at hreached
  · next refs file c entry hrefs hparse hcheck =>
    obtain ⟨refs', file', run, hrefs', hparse', hrun, -, hlaw⟩ := log_of_check hcheck "" {}
    obtain rfl := Except.ok.inj (hrefs.symm.trans hrefs')
    obtain rfl := Except.ok.inj (hparse.symm.trans hparse')
    rw [← hrun] at hreached
    have hplaces := Option.some.inj hreached
    have halone : AllStandAlone looping.toList (worldOf run) := by
      intro r hr
      have hplace := List.mem_map_of_mem (f := fun r : Reached => r.callee.span.start) hr
      rw [hplaces, List.mem_pair, or_self] at hplace
      have hstands := looping_standsAlone
      rw [← hplace] at hstands
      exact ⟨4, _, hstands⟩
    refine ⟨c, entry, hcheck, _, halone, ?_, (hlaw halone).1⟩
    rw [← List.length_map fun r : Reached => r.callee.span.start, hplaces]
    rfl
  · cases hreached

/-- A source that logs a text with the text of a short declaration in it. -/
def quoting : String :=
  "class T \x7b
 static fn fill(document: Document, log: fn(any)) \x7b
  log(\"see log: fn(any)\");
 \x7d
\x7d
"

/-- The statement of the source stands alone on its third line, and its one call of the log leaves an
entry without the text of the argument. -/
theorem log_of_quoting :
    StandsAlone quoting.toList 77 3 ⟨"  ".toList, "\"see log: fn(any)\"".toList, []⟩ ∧
    reachedAt { steps := 0 } quoting = some [77] ∧
    ∃ text, (ofSource { steps := 0 } quoting "" {}).1.toOption.map Report.log = some [text] ∧
      ∀ v, text ≠ entryText 3 "\"see log: fn(any)\"".toList v := by
  have hstands : StandsAlone quoting.toList 77 3
      ⟨"  ".toList, "\"see log: fn(any)\"".toList, []⟩ :=
    { alone := ⟨List.all_eq_true.mp (by decide +kernel), List.all_eq_true.mp (by decide +kernel)⟩
      single := by decide +kernel
      place := ⟨2, 75, rfl, by decide +kernel, by decide +kernel, by decide +kernel⟩ }
  refine ⟨hstands, by decide +kernel,
    "#3: \"see log: fn(int, string, any)\": see log: fn(int, string, any)", by decide +kernel, ?_⟩
  intro v h
  have hfront := congrArg (fun text => text.toList.take 18) h
  unfold entryText at hfront
  rw [String.toList_append, List.take_append_of_le_length (by decide +kernel)] at hfront
  exact absurd hfront (by decide +kernel)

end Report

end ReportTemplate
