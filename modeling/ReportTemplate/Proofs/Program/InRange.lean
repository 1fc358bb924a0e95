import ReportTemplate.Program.Compile
import ReportTemplate.Proofs.Program.Resolution

/-!
# ReportTemplate.Proofs.Program.InRange — the indices of a compiled program

Every slot of a body lies in the frame of its method, every call passes as many arguments as its callee
takes, and every method stands in the class that owns it.
-/

namespace ReportTemplate.Program

/-! ### Indices -/

section

variable (p : Program)

/-- A static method of the program that takes some number of arguments. -/
def Takes (id : MethodId) (count : Nat) : Prop :=
  ∃ m, p.methods[id]? = some m ∧ m.signature.isStatic = true ∧ m.signature.params.length = count

variable (size : Nat)

mutual

/-- The slots of an expression lie in a frame, and its calls pass as many arguments as their callees
take. -/
def Expr.InRange : Expr → Prop
  | .const _ _ => True
  | .slot _ i => i < size
  | .list _ items => Expr.AllInRange items
  | .unary _ _ operand => operand.InRange
  | .binary _ _ left right => left.InRange ∧ right.InRange
  | .index _ target place => target.InRange ∧ place.InRange
  | .callMethod _ id args => Takes p id args.length ∧ Expr.AllInRange args
  | .callFunction _ g args => g.params = args.length ∧ Expr.AllInRange args
  | .callSlot _ i _ args => i < size ∧ Expr.AllInRange args
  | .callDocument _ m receiver args =>
    m.params = args.length ∧ receiver.InRange ∧ Expr.AllInRange args
  | .callDynamic _ _ receiver args document function =>
    (∀ m ∈ document, m.params = args.length) ∧ (∀ g ∈ function, g.params = args.length + 1) ∧
      receiver.InRange ∧ Expr.AllInRange args

def Expr.AllInRange : List Expr → Prop
  | [] => True
  | e :: es => e.InRange ∧ Expr.AllInRange es

end

mutual

/-- The slots of a statement lie in a frame, and so do its expressions. -/
def Stmt.InRange : Stmt → Prop
  | .store _ slot value => slot < size ∧ value.InRange p size
  | .expr _ value => value.InRange p size
  | .branch _ branches otherwise => Stmt.ArmsInRange branches ∧ Stmt.OtherwiseInRange otherwise
  | .loop _ cond body => cond.InRange p size ∧ Stmt.AllInRange body
  | .forEach _ slot items body => slot < size ∧ items.InRange p size ∧ Stmt.AllInRange body
  | .forRange _ slot start stop body =>
    slot < size ∧ start.InRange p size ∧ stop.InRange p size ∧ Stmt.AllInRange body
  | .result _ none => True
  | .result _ (some value) => value.InRange p size

def Stmt.AllInRange : List Stmt → Prop
  | [] => True
  | s :: ss => s.InRange ∧ Stmt.AllInRange ss

def Stmt.ArmsInRange : List (Expr × List Stmt) → Prop
  | [] => True
  | (cond, body) :: rest =>
    cond.InRange p size ∧ Stmt.AllInRange body ∧ Stmt.ArmsInRange rest

def Stmt.OtherwiseInRange : Option (List Stmt) → Prop
  | none => True
  | some body => Stmt.AllInRange body

end

/-- Nothing in a program refers to what is not there. -/
structure InRange : Prop where
  /-- The parameters have slots, and the body stays within its frame. -/
  body : ∀ m ∈ p.methods,
    m.signature.params.length ≤ m.frameSize ∧ Stmt.AllInRange p m.frameSize m.body
  /-- Every method is listed by the class that owns it. -/
  owner : ∀ (id : MethodId) (m : Method), p.methods[id]? = some m →
    ∃ t : TypeInfo, p.types[m.owner]? = some t ∧ id ∈ t.methods

end

/-! ### Resolved bodies -/

section

variable {S : Surroundings} {p : Program} {size : Nat}

/-- The methods of a program have the declared signatures, and library functions have parameters. -/
structure Serves (S : Surroundings) (p : Program) : Prop where
  signature : ∀ (id : MethodId) (m : Pending), S.declared.methods[id]? = some m →
    ∃ m' : Method, p.methods[id]? = some m' ∧ m'.signature = m.signature
  params : ∀ (name : String) (g : Function), S.refs.function? name = some g → 0 < g.params

theorem Callable.takes (hp : Serves S p) {id : MethodId} {args : List Expr}
    (h : Callable S id args) : Takes p id args.length := by
  obtain ⟨m, hm, hstatic, hcount⟩ := h
  obtain ⟨m', hm', hsignature⟩ := hp.signature id m hm
  refine ⟨m', hm', ?_, ?_⟩
  · rw [hsignature]
    exact hstatic
  · rw [hsignature]
    exact hcount

theorem params_documentFor (name : String) (args : List Expr) :
    ∀ m ∈ documentFor S name args, m.params = args.length := by
  intro m hm
  have hfit := (Option.filter_eq_some_iff.mp hm).2
  exact of_decide_eq_true hfit

theorem params_functionFor (name : String) (args : List Expr) :
    ∀ g ∈ functionFor S name args, g.params = args.length + 1 := by
  intro g hg
  have hfit := (Option.filter_eq_some_iff.mp hg).2
  exact of_decide_eq_true hfit

theorem View.Good.read?_lt {v : View} (hv : v.Good) (hsize : v.size ≤ size) {name : String}
    {slot : Slot} (h : v.slots.read? name = some slot) : slot < size :=
  Nat.lt_of_lt_of_le (hv.lt_size slot (Scopes.mem_of_read? h)) hsize

mutual

theorem Resolves.inRange (hp : Serves S p) {v : View} (hv : v.Good) (hsize : v.size ≤ size) :
    ∀ (e : Syntax.Expr) {e' : Expr}, Resolves S v e e' → e'.InRange p size
  | .literal _ _, _, .literal => trivial
  | .ident _ _, _, .ident found => hv.read?_lt hsize found
  | .list _ items, _, .list parts => Resolves.allInRange hp hv hsize items parts
  | .unary _ _ operand, _, .unary part => by
    have hpart := Resolves.inRange hp hv hsize operand part
    exact hpart
  | .binary _ _ l r, _, .binary left right =>
    ⟨Resolves.inRange hp hv hsize l left, Resolves.inRange hp hv hsize r right⟩
  | .index _ t i, _, .index target place =>
    ⟨Resolves.inRange hp hv hsize t target, Resolves.inRange hp hv hsize i place⟩
  | .call _ _ args, _, .callLocal parts found =>
    ⟨hv.read?_lt hsize found, Resolves.allInRange hp hv hsize args parts⟩
  | .call _ _ args, _, .callOwn parts _ _ callable =>
    ⟨callable.takes hp, Resolves.allInRange hp hv hsize args parts⟩
  | .call _ _ args, _, .callFunction parts _ _ _ count =>
    ⟨count, Resolves.allInRange hp hv hsize args parts⟩
  | .method _ _ _ args, _, .qualified _ parts _ callable =>
    ⟨callable.takes hp, Resolves.allInRange hp hv hsize args parts⟩
  | .method _ r _ args, _, .document _ object parts _ _ count =>
    ⟨count, Resolves.inRange hp hv hsize r object, Resolves.allInRange hp hv hsize args parts⟩
  | .method _ r method args, _, .dynamic _ object parts _ _ =>
    ⟨params_documentFor method.text _, params_functionFor method.text _,
      Resolves.inRange hp hv hsize r object, Resolves.allInRange hp hv hsize args parts⟩
  | .method _ r method args, _, .receiver _ object parts _ _ found count => by
    -- Only here does the count rest on the parameters of the functions: `0 - 1 = 0` would pass.
    have hpos := hp.params method.text _ found
    refine ⟨?_, Resolves.inRange hp hv hsize r object, Resolves.allInRange hp hv hsize args parts⟩
    rw [List.length_cons]
    omega

theorem Resolves.allInRange (hp : Serves S p) {v : View} (hv : v.Good) (hsize : v.size ≤ size) :
    ∀ (es : List Syntax.Expr) {es' : List Expr},
      List.Forall₂ (Resolves S v) es es' → Expr.AllInRange p size es'
  | [], _, .nil => trivial
  | e :: es, _, .cons head tail =>
    ⟨Resolves.inRange hp hv hsize e head, Resolves.allInRange hp hv hsize es tail⟩

end

mutual

theorem ResolvesStmt.inRange (hp : Serves S p) : ∀ (s : Syntax.Stmt) {v w : View} {t : Stmt},
    ResolvesStmt S v s t w → v.Good → w.size ≤ size → t.InRange p size
  | .declare _ _ e, v, _, _, .declare value, hv, hsize =>
    ⟨hsize, Resolves.inRange hp hv (Nat.le_of_succ_le hsize) e value⟩
  | .assign _ _ e, v, _, _, .assign value found, hv, hsize =>
    ⟨hv.read?_lt hsize found, Resolves.inRange hp hv hsize e value⟩
  | .expr _ e, _, _, _, .expr value, hv, hsize => Resolves.inRange hp hv hsize e value
  | .branch _ branches otherwise, v, w, _, .branch arms last, hv, hsize =>
    ⟨ResolvesArms.inRange hp branches arms hv (Nat.le_trans last.extends.1.size_le hsize),
      ResolvesOtherwise.inRange hp otherwise last (arms.extends.1.good hv) hsize⟩
  | .loop _ cond body, v, _, _, .loop test block, hv, hsize =>
    ⟨Resolves.inRange hp hv (Nat.le_trans block.extends.1.size_le hsize) cond test,
      ResolvesStmts.inRange hp body block hv.enter hsize⟩
  | .forEach _ binding items body, v, _, _, .forEach values block, hv, hsize => by
    have hlt : v.size < size := Nat.lt_of_lt_of_le block.extends.1.size_le hsize
    exact ⟨hlt, Resolves.inRange hp hv (Nat.le_of_lt hlt) items values,
      ResolvesStmts.inRange hp body block (hv.enter.declare binding.text .any).enter hsize⟩
  | .forRange _ binding start stop body, v, _, _, .forRange first last block, hv, hsize => by
    have hlt : v.size < size := Nat.lt_of_lt_of_le block.extends.1.size_le hsize
    exact ⟨hlt, Resolves.inRange hp hv (Nat.le_of_lt hlt) start first,
      Resolves.inRange hp hv (Nat.le_of_lt hlt) stop last,
      ResolvesStmts.inRange hp body block (hv.enter.declare binding.text .int).enter hsize⟩
  | .result _ none, _, _, _, .leave, _, _ => trivial
  | .result _ (some e), _, _, _, .result value, hv, hsize => Resolves.inRange hp hv hsize e value

theorem ResolvesStmts.inRange (hp : Serves S p) : ∀ (ss : List Syntax.Stmt) {v w : View}
    {ts : List Stmt}, ResolvesStmts S v ss ts w → v.Good → w.size ≤ size → Stmt.AllInRange p size ts
  | [], _, _, _, .nil, _, _ => trivial
  | s :: ss, _, _, _, .cons head tail, hv, hsize =>
    ⟨ResolvesStmt.inRange hp s head hv (Nat.le_trans tail.extends.1.size_le hsize),
      ResolvesStmts.inRange hp ss tail (head.extends.1.good hv) hsize⟩

theorem ResolvesArms.inRange (hp : Serves S p) : ∀ (bs : List (Syntax.Expr × List Syntax.Stmt))
    {v w : View} {cs : List (Expr × List Stmt)}, ResolvesArms S v bs cs w → v.Good → w.size ≤ size →
      Stmt.ArmsInRange p size cs
  | [], _, _, _, .nil, _, _ => trivial
  | (cond, body) :: bs, v, _, _, .cons test block tail, hv, hsize => by
    have hblock := Nat.le_trans tail.extends.1.size_le hsize
    have htest := Nat.le_trans block.extends.1.size_le hblock
    exact ⟨Resolves.inRange hp hv htest cond test, ResolvesStmts.inRange hp body block hv.enter hblock,
      ResolvesArms.inRange hp bs tail (block.extends.1.block.good hv) hsize⟩

theorem ResolvesOtherwise.inRange (hp : Serves S p) : ∀ (o : Option (List Syntax.Stmt))
    {v w : View} {q : Option (List Stmt)}, ResolvesOtherwise S v o q w → v.Good → w.size ≤ size →
      Stmt.OtherwiseInRange p size q
  | none, _, _, _, .none, _, _ => trivial
  | some body, _, _, _, .some block, hv, hsize => ResolvesStmts.inRange hp body block hv.enter hsize

end

end

/-! ### Compiled programs -/

/-- A method of a program comes from a declared method: it has its signature and owner, and its body is
the body of the declaration with the names resolved. -/
structure Implements (S : Surroundings) (m : Pending) (m' : Method) : Prop where
  faithful : m.Faithful
  signature : m'.signature = m.signature
  owner : m'.owner = m.owner
  body : ∃ w : View, ResolvesStmts S (paramsView m).enter m.declaration.body m'.body w ∧
    m'.frameSize = w.size

/-- A source that compiles has been read, and nothing but warnings was found in it. -/
theorem compile_ok {refs : ReferenceSet} {policy : WarningPolicy} {source : List Char} {c : Compiled}
    (h : compile refs policy source = .ok c) :
    ∃ file, Syntax.parse source = .ok file ∧
      c.program = (resolve refs (LineIndex.ofSource source) file).1 ∧
      Clean (resolve refs (LineIndex.ofSource source) file).2 := by
  unfold compile at h
  split at h
  · cases h
  · next file hparse =>
    unfold ofFile at h
    dsimp only at h
    split at h
    · cases h
    · next hfailure =>
      cases h
      refine ⟨file, hparse, rfl, clean_iff.mpr fun d hd hsevere => hfailure ?_⟩
      have hmem : policy.apply d ∈ byPlace ((resolve refs (LineIndex.ofSource source) file).2.map
          policy.apply) := List.mem_mergeSort.mpr (List.mem_map_of_mem hd)
      refine List.any_eq_true.mpr ⟨_, hmem, ?_⟩
      have hcode : (policy.apply d).code = d.code := by
        unfold WarningPolicy.apply
        split <;> rfl
      have happlied : (policy.apply d).severity = .error := by
        unfold Diagnostic.severity
        rw [hcode]
        exact hsevere
      unfold Diagnostic.isFailure
      rw [happlied]
      rfl

section

variable {refs : ReferenceSet} {lines : LineIndex} {file : Syntax.File}
  (h : Clean (resolve refs lines file).2)

include h

theorem resolve_implements {id : MethodId} {m : Pending}
    (hm : (declarations refs file).methods[id]? = some m) :
    ∃ m', (resolve refs lines file).1.methods[id]? = some m' ∧
      Implements ⟨refs, lines, declarations refs file, m.owner⟩ m m' := by
  obtain ⟨hfaithful, -⟩ := (declarations_clean (clean_declarations h)).2 id m hm
  obtain ⟨-, hbody⟩ := resolveMethod_clean hfaithful (clean_method h hm)
  exact ⟨_, getElem?_resolve hm, hfaithful, rfl, rfl, hbody⟩

/-- The methods of a program are those that were declared. -/
theorem implements_of_getElem? {id : MethodId} {m' : Method}
    (hm' : (resolve refs lines file).1.methods[id]? = some m') :
    ∃ m, (declarations refs file).methods[id]? = some m ∧
      Implements ⟨refs, lines, declarations refs file, m.owner⟩ m m' := by
  have hlength : (resolve refs lines file).1.methods.length =
      (declarations refs file).methods.length := by
    show ((List.map _ _).map Prod.fst).length = _
    rw [List.length_map, List.length_map]
  have hlt : id < (declarations refs file).methods.length := by
    rw [← hlength]
    exact (List.getElem?_eq_some_iff.mp hm').1
  have hm := List.getElem?_eq_getElem hlt
  obtain ⟨m₂, hm₂, himplements⟩ := resolve_implements h hm
  obtain rfl : m₂ = m' := Option.some.inj (hm₂.symm.trans hm')
  exact ⟨_, hm, himplements⟩

theorem serves_resolve (hrefs : ∀ l ∈ refs.libraries, ∀ g ∈ l.functions, 0 < g.params)
    (owner : TypeId) :
    Serves ⟨refs, lines, declarations refs file, owner⟩ (resolve refs lines file).1 := by
  refine ⟨fun id m hm => ?_, fun name g hg => ?_⟩
  · obtain ⟨m', hm', himplements⟩ := resolve_implements h hm
    exact ⟨m', hm', himplements.signature⟩
  · obtain ⟨l, hl, hmem⟩ := List.mem_flatMap.mp (List.mem_of_find?_eq_some hg)
    exact hrefs l hl g hmem

theorem resolve_inRange (hrefs : ∀ l ∈ refs.libraries, ∀ g ∈ l.functions, 0 < g.params) :
    (resolve refs lines file).1.InRange := by
  refine ⟨fun m' hm' => ?_, fun id m' hm' => ?_⟩
  · obtain ⟨id, hid⟩ := List.mem_iff_getElem?.mp hm'
    obtain ⟨m, -, himplements⟩ := implements_of_getElem? h hid
    obtain ⟨w, hbody, hsize⟩ := himplements.body
    have hgood := (paramsView_good himplements.faithful).enter
    rw [himplements.signature, hsize]
    exact ⟨hbody.extends.1.size_le, ResolvesStmts.inRange (serves_resolve h hrefs m.owner) _ hbody
      hgood (Nat.le_refl _)⟩
  · obtain ⟨m, hm, himplements⟩ := implements_of_getElem? h hm'
    obtain ⟨-, t, ht, hlists⟩ := (declarations_clean (clean_declarations h)).2 id m hm
    rw [himplements.owner]
    exact ⟨t, ht, hlists⟩

end

end ReportTemplate.Program
