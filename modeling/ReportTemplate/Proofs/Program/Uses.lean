import ReportTemplate.Proofs.Program.Clears
import ReportTemplate.Proofs.Program.Places
import ReportTemplate.Proofs.Syntax.Occurrences

/-!
# ReportTemplate.Proofs.Program.Uses — names that stand for no local, and locals that are never used

`Follows` says what code changes in a scope: which of the locals that are there are marked as used, and
what is reported about names without a local and about locals that are not used.  `Opens` is the
judgement of a computation that declares some locals and leaves them visible; it has a rule for each way
to put computations together, and whether something else is wrong with the code plays no part in it.
-/

namespace ReportTemplate.Program

open Syntax (Ident Occurrence Binding)
open Syntax.Occurrence (outside isUsed)

/-! ### What is reported -/

/-- The report about a name that should stand for a local. -/
def unknownVariable (o : Occurrence) : Diagnostic :=
  ⟨.unknownVariable, "unknown variable '" ++ o.name ++ "'", o.span, [], false⟩

/-- The report about an assignment to a name that should stand for a local. -/
def undeclaredTarget (o : Occurrence) : Diagnostic :=
  ⟨.undeclaredAssignment,
    "cannot assign to undeclared variable '" ++ o.name ++ "'; declare it with 'let'", o.span, [], false⟩

/-- The report about a `let` that is never used. -/
def unusedVariable (name : Ident) : Diagnostic :=
  ⟨.unusedVariable, "unused variable '" ++ name.text ++ "'", name.span, [], false⟩

/-- What is reported about a name that stands for no local.  A callee is looked for elsewhere, and a
receiver may be the name of a class. -/
def missing? (isClass : String → Bool) (o : Occurrence) : Option Diagnostic :=
  match o.role with
  | .variable => some (unknownVariable o)
  | .receiver => if isClass o.name then none else some (unknownVariable o)
  | .callee => none
  | .target => some (undeclaredTarget o)

/-- The reports about names that stand for no local. -/
def missed (ds : List Diagnostic) : List Diagnostic :=
  ds.filter fun d => d.code = .unknownVariable || d.code = .undeclaredAssignment

/-- The reports about locals that are never used. -/
def unused (ds : List Diagnostic) : List Diagnostic := ds.filter fun d => d.code = .unusedVariable

theorem missed_append (ds es : List Diagnostic) : missed (ds ++ es) = missed ds ++ missed es :=
  List.filter_append ..

theorem unused_append (ds es : List Diagnostic) : unused (ds ++ es) = unused ds ++ unused es :=
  List.filter_append ..

theorem missed_unusedVariable (names : List Ident) : missed (names.map unusedVariable) = [] :=
  List.filter_eq_nil_iff.mpr (List.forall_mem_map.mpr fun _ _ => Bool.false_ne_true)

theorem unused_unusedVariable (names : List Ident) :
    unused (names.map unusedVariable) = names.map unusedVariable :=
  List.filter_eq_self.mpr (List.forall_mem_map.mpr fun _ _ => rfl)

namespace Resolve

/-- What is reported about a name in a scope. -/
def report? (isClass : String → Bool) (visible : List (String × Slot)) (o : Occurrence) :
    Option Diagnostic :=
  match visible.lookup o.name with
  | some _ => none
  | none => missing? isClass o

/-- A name uses the local of a slot. -/
def standsFor (visible : List (String × Slot)) (slot : Slot) (o : Occurrence) : Bool :=
  o.isUse && visible.lookup o.name = some slot

/-- The local is the same, apart from its type and from being used. -/
structure Marked (used : Bool) (l l' : Local) : Prop where
  name : l'.name = l.name
  span : l'.span = l.span
  watched : l'.watched = l.watched
  used : l'.used = (l.used || used)

theorem Marked.refl (l : Local) : Marked false l l := ⟨rfl, rfl, rfl, (Bool.or_false _).symm⟩

theorem Marked.trans {u v : Bool} {l l' l'' : Local} (h : Marked u l l') (h' : Marked v l' l'') :
    Marked (u || v) l l'' :=
  ⟨h'.name.trans h.name, h'.span.trans h.span, h'.watched.trans h.watched, by
    rw [h'.used, h.used, Bool.or_assoc]⟩

/-- Code in which the names `os` are free, and inside which the `let`s `idle` are never used, has come from
one scope to another. -/
structure Follows (isClass : String → Bool) (os : List Occurrence) (idle : List Ident)
    (σ τ : Scope) : Prop where
  size : σ.locals.length ≤ τ.locals.length
  locals : ∀ (i : Nat) (l : Local), σ.locals[i]? = some l →
    ∃ l', τ.locals[i]? = some l' ∧ Marked (os.any (standsFor σ.visible i)) l l'
  missed : missed τ.found = missed σ.found ++ os.filterMap (report? isClass σ.visible)
  unused : unused τ.found = unused σ.found ++ idle.map unusedVariable

variable {isClass : String → Bool} {os os' : List Occurrence} {idle idle' : List Ident}
  {σ τ υ : Scope}

theorem Follows.refl (isClass : String → Bool) (σ : Scope) : Follows isClass [] [] σ σ where
  size := Nat.le_refl _
  locals _ l hl := ⟨l, hl, .refl l⟩
  missed := (List.append_nil _).symm
  unused := (List.append_nil _).symm

theorem Follows.trans (h : Follows isClass os idle σ τ) (hvisible : τ.visible = σ.visible)
    (h' : Follows isClass os' idle' τ υ) : Follows isClass (os ++ os') (idle ++ idle') σ υ where
  size := Nat.le_trans h.size h'.size
  locals i l hl := by
    obtain ⟨l', hl', hmarked⟩ := h.locals i l hl
    obtain ⟨l'', hl'', hmarked'⟩ := h'.locals i l' hl'
    rw [hvisible] at hmarked'
    refine ⟨l'', hl'', ?_⟩
    rw [List.any_append]
    exact hmarked.trans hmarked'
  missed := by rw [h'.missed, h.missed, hvisible, List.filterMap_append, List.append_assoc]
  unused := by rw [h'.unused, h.unused, List.map_append, List.append_assoc]

/-- Names that use and miss the same locals follow each other. -/
theorem Follows.congr (h : Follows isClass os idle σ τ)
    (huses : ∀ i, os'.any (standsFor σ.visible i) = os.any (standsFor σ.visible i))
    (hmissed : os'.filterMap (report? isClass σ.visible) = os.filterMap (report? isClass σ.visible)) :
    Follows isClass os' idle σ τ where
  size := h.size
  locals i l hl := by
    rw [huses]
    exact h.locals i l hl
  missed := by rw [h.missed, hmissed]
  unused := h.unused

/-! ### The judgement -/

/-- The visible names have locals. -/
def InBounds (σ : Scope) : Prop := ∀ p ∈ σ.visible, p.2 < σ.locals.length

/-- The local of a slot is the one of a declaration. -/
def Holds (τ : Scope) (slot : Slot) (b : Binding) : Prop :=
  ∃ l, τ.locals[slot]? = some l ∧ l.name = b.name.text ∧ l.span = b.name.span ∧
    l.watched = b.watched ∧ l.used = b.used

/-- The scope comes from another one with some declarations, which are visible and not yet closed. -/
structure Opened (isClass : String → Bool) (bs : List Binding) (os : List Occurrence)
    (idle : List Ident) (σ τ : Scope) : Prop where
  visible : ∃ added, τ.visible = added ++ σ.visible ∧
    List.Forall₂ (Holds τ) (added.reverse.map Prod.snd) bs
  follows : Follows isClass os idle σ τ

/-- A computation that opens some declarations. -/
def Opens (isClass : String → Bool) {α : Type} (bs : List Binding) (os : List Occurrence)
    (idle : List Ident) (x : Resolve α) : Prop :=
  ∀ σ, InBounds σ → Opened isClass bs os idle σ (x σ).2

theorem Opened.visible_eq (h : Opened isClass [] os idle σ τ) : τ.visible = σ.visible := by
  obtain ⟨added, hadded, hnone⟩ := h.visible
  have hnil : added = [] := by simpa using hnone
  rw [hadded, hnil, List.nil_append]

theorem Opened.of_visible (hvisible : τ.visible = σ.visible) (h : Follows isClass os idle σ τ) :
    Opened isClass [] os idle σ τ :=
  ⟨⟨[], hvisible, .nil⟩, h⟩

theorem Opened.inBounds (h : Opened isClass [] os idle σ τ) (hσ : InBounds σ) : InBounds τ := by
  intro p hp
  rw [h.visible_eq] at hp
  exact Nat.lt_of_lt_of_le (hσ p hp) h.follows.size

theorem Opened.trans {bs : List Binding} (h : Opened isClass [] os idle σ τ)
    (h' : Opened isClass bs os' idle' τ υ) : Opened isClass bs (os ++ os') (idle ++ idle') σ υ := by
  obtain ⟨⟨added, hvisible, hholds⟩, hfollows⟩ := h'
  rw [h.visible_eq] at hvisible
  exact ⟨⟨added, hvisible, hholds⟩, h.follows.trans h.visible_eq hfollows⟩

namespace Opens

variable {α β : Type} {bs : List Binding} {x : Resolve α}

theorem pure (a : α) : Opens isClass [] [] [] (Pure.pure a : Resolve α) :=
  fun σ _ => .of_visible rfl (.refl isClass σ)

theorem bind {f : α → Resolve β} (hx : Opens isClass [] os idle x)
    (hf : ∀ a, Opens isClass bs os' idle' (f a)) :
    Opens isClass bs (os ++ os') (idle ++ idle') (x >>= f) := by
  intro σ hσ
  have h := hx σ hσ
  exact h.trans (hf (x σ).1 (x σ).2 (h.inBounds hσ))

/-- What is done with the result of a computation adds nothing. -/
theorem map {f : α → Resolve β} (hx : Opens isClass bs os idle x)
    (hf : ∀ a τ, (f a τ).2 = τ) : Opens isClass bs os idle (x >>= f) := by
  intro σ hσ
  rw [bind_apply, hf]
  exact hx σ hσ

/-- A computation behind another one that uses nothing. -/
theorem andThen {f : α → Resolve β} (hx : Opens isClass [] os idle x)
    (hf : ∀ a, Opens isClass [] [] [] (f a)) : Opens isClass [] os idle (x >>= f) := by
  have h := hx.bind hf
  rwa [List.append_nil, List.append_nil] at h

/-- A computation that declares and uses nothing, whatever it reports about calls. -/
theorem of_preserves (h : ∀ σ, Preserves (Opened isClass [] [] [] σ) x) :
    Opens isClass [] [] [] x :=
  fun σ _ => h σ σ (.of_visible rfl (.refl isClass σ))

end Opens

/-- A report with another code than those about names. -/
theorem preserves_report {code : Diagnostic.Code}
    (hcode : code ≠ .unknownVariable ∧ code ≠ .undeclaredAssignment ∧ code ≠ .unusedVariable)
    (message : String) (span : Span) :
    Preserves (Opened isClass [] os idle σ) (report code message span) := by
  intro τ h
  have hmissed : missed [⟨code, message, span, [], false⟩] = [] := by simp [missed, hcode]
  have hunused : unused [⟨code, message, span, [], false⟩] = [] := by simp [unused, hcode]
  refine .of_visible h.visible_eq ⟨h.follows.size, h.follows.locals, ?_, ?_⟩
  · change missed (τ.found ++ [_]) = _
    rw [missed_append, hmissed, List.append_nil, h.follows.missed]
  · change unused (τ.found ++ [_]) = _
    rw [unused_append, hunused, List.append_nil, h.follows.unused]

theorem reportsKeep_opened (span : Span) : ReportsKeep (Opened isClass [] os idle σ) span :=
  fun code hcode message => preserves_report (by revert code; decide) message span

/-! ### Names -/

/-- Only the local of a slot is changed. -/
theorem marked_change {slot : Slot} {f : Local → Local} {used : Slot → Bool}
    (hslot : ∀ l, Marked (used slot) l (f l)) (hothers : ∀ i, slot ≠ i → used i = false) (σ : Scope)
    (i : Nat) (l : Local) (hl : σ.locals[i]? = some l) :
    ∃ l', (change slot f σ).2.locals[i]? = some l' ∧ Marked (used i) l l' := by
  refine ⟨if slot = i then f l else l, ?_, ?_⟩
  · change (σ.locals.modify slot f)[i]? = _
    rw [List.getElem?_modify, hl]
    split <;> rfl
  · by_cases hi : slot = i
    · rw [if_pos hi, ← hi]
      exact hslot l
    · rw [if_neg hi, hothers i hi]
      exact .refl l

/-- A change of one local, which uses it as the names `os` do. -/
theorem opened_change {slot : Slot} {f : Local → Local}
    (hslot : ∀ l, Marked (os.any (standsFor σ.visible slot)) l (f l))
    (hothers : ∀ i, slot ≠ i → os.any (standsFor σ.visible i) = false)
    (hreport : os.filterMap (report? isClass σ.visible) = []) :
    Opened isClass [] os [] σ (change slot f σ).2 := by
  refine .of_visible rfl ⟨Nat.le_of_eq (List.length_modify ..).symm,
    marked_change hslot hothers σ, ?_, (List.append_nil _).symm⟩
  rw [hreport]
  exact (List.append_nil _).symm

/-- A name that stands for a local and uses it. -/
theorem opened_use {o : Occurrence} {slot : Slot} (huse : o.isUse = true)
    (hlookup : σ.visible.lookup o.name = some slot) :
    Opened isClass [] [o] [] σ (use slot σ).2 := by
  have hstands (i : Slot) : [o].any (standsFor σ.visible i) = decide (slot = i) := by
    simp [standsFor, huse, hlookup]
  refine opened_change (fun l => ?_) (fun i hi => ?_) (by simp [report?, hlookup])
  · rw [hstands, decide_eq_true rfl]
    exact ⟨rfl, rfl, rfl, (Bool.or_true _).symm⟩
  · rw [hstands, decide_eq_false hi]

/-- The type of a local says nothing about its uses. -/
theorem opened_forget (slot : Slot) :
    Opened isClass [] [] [] σ (change slot (fun l => { l with ty := .any }) σ).2 :=
  opened_change (fun _ => ⟨rfl, rfl, rfl, (Bool.or_false _).symm⟩) (fun _ _ => rfl) rfl

/-- A name that stands for a local and does not use it, or that is not to stand for one. -/
theorem opened_silent {o : Occurrence} (huse : o.isUse = false ∨ σ.visible.lookup o.name = none)
    (hreport : report? isClass σ.visible o = none) : Opened isClass [] [o] [] σ σ := by
  have hstands : ∀ i, standsFor σ.visible i o = false := fun i => by
    rcases huse with h | h <;> simp [standsFor, h]
  exact .of_visible rfl ((Follows.refl isClass σ).congr (fun i => by simp [hstands])
    (by simp [hreport]))

/-- A name that stands for no local, though it should. -/
theorem opened_missing {o : Occurrence} {d : Diagnostic} (hlookup : σ.visible.lookup o.name = none)
    (hd : missing? isClass o = some d) :
    Opened isClass [] [o] [] σ { σ with found := σ.found ++ [d] } := by
  have hcode : d.code = .unknownVariable ∨ d.code = .undeclaredAssignment := by
    unfold missing? at hd
    split at hd
    · exact .inl (congrArg Diagnostic.code (Option.some.inj hd).symm)
    · split at hd
      · cases hd
      · exact .inl (congrArg Diagnostic.code (Option.some.inj hd).symm)
    · cases hd
    · exact .inr (congrArg Diagnostic.code (Option.some.inj hd).symm)
  have hmissed : missed [d] = [d] := by rcases hcode with h | h <;> simp [missed, h]
  have hunused : unused [d] = [] := by rcases hcode with h | h <;> simp [unused, h]
  have hstands : ∀ i, standsFor σ.visible i o = false := fun i => by simp [standsFor, hlookup]
  refine .of_visible rfl ⟨Nat.le_refl _, fun i l hl => ⟨l, hl, ?_⟩, ?_, ?_⟩
  · simpa [hstands] using Marked.refl l
  · rw [missed_append, hmissed]
    simp [report?, hlookup, hd]
  · rw [unused_append, hunused]
    rfl

/-! ### Declarations -/

theorem lookup_cons_visible (visible : List (String × Slot)) (declared name : String) (slot : Slot) :
    List.lookup name ((declared, slot) :: visible) =
      if name = declared then some slot else visible.lookup name := by
  rw [List.lookup_cons]
  by_cases h : name = declared
  · rw [if_pos h, beq_iff_eq.mpr h]
  · rw [if_neg h, beq_eq_false_iff_ne.mpr h]

/-- The slot of a visible name has a local. -/
theorem InBounds.lt_of_lookup {name : String} {slot : Slot} (h : InBounds σ)
    (hlookup : σ.visible.lookup name = some slot) : slot < σ.locals.length := by
  obtain ⟨front, rest, hvisible, -⟩ := List.lookup_eq_some_iff.mp hlookup
  exact h (name, slot) (hvisible ▸ List.mem_append_right _ List.mem_cons_self)

/-- The scope with a new local. -/
def withLocal (σ : Scope) (l : Local) : Scope :=
  { σ with locals := σ.locals ++ [l], visible := (l.name, σ.locals.length) :: σ.visible }

theorem InBounds.withLocal (h : InBounds σ) (l : Local) : InBounds (withLocal σ l) := by
  have hsize : (σ.locals ++ [l]).length = σ.locals.length + 1 := List.length_append
  intro p hp
  change p.2 < (σ.locals ++ [l]).length
  rw [hsize]
  rcases List.mem_cons.mp hp with rfl | hp
  · exact Nat.lt_succ_self _
  · exact Nat.lt_succ_of_lt (h p hp)

/-- Names that a new local captures do not use the others. -/
theorem any_standsFor_withLocal (l : Local) {i : Slot} (hi : i < σ.locals.length) :
    os.any (standsFor (withLocal σ l).visible i) = (outside l.name os).any (standsFor σ.visible i) := by
  rw [outside, List.any_filter]
  refine congrArg os.any (funext fun o => ?_)
  unfold standsFor withLocal
  rw [lookup_cons_visible]
  by_cases hname : o.name = l.name
  · simp [hname, Nat.ne_of_gt hi]
  · simp [hname]

/-- A new local is used by the names that it captures. -/
theorem any_standsFor_new (h : InBounds σ) (l : Local) :
    os.any (standsFor (withLocal σ l).visible σ.locals.length) = isUsed l.name os := by
  refine congrArg os.any (funext fun o => ?_)
  unfold standsFor withLocal
  rw [lookup_cons_visible]
  by_cases hname : o.name = l.name
  · simp [hname]
  · have hne : σ.visible.lookup o.name ≠ some σ.locals.length := fun hlookup =>
      Nat.lt_irrefl _ (h.lt_of_lookup hlookup)
    simp [hname, hne]

theorem filterMap_report?_withLocal (l : Local) :
    os.filterMap (report? isClass (withLocal σ l).visible) =
      (outside l.name os).filterMap (report? isClass σ.visible) := by
  rw [outside, List.filterMap_filter]
  refine List.filterMap_congr fun o _ => ?_
  unfold report? withLocal
  rw [lookup_cons_visible]
  by_cases hname : o.name = l.name <;> simp [hname]

/-- What follows a declaration follows what stands in front of it without the names that it captures. -/
theorem Follows.of_withLocal {l : Local} (h : Follows isClass os idle (withLocal σ l) τ) :
    Follows isClass (outside l.name os) idle σ τ where
  size := by
    have hsize : (withLocal σ l).locals.length = σ.locals.length + 1 := List.length_append
    have hle := h.size
    omega
  locals i l' hl' := by
    have hi : i < σ.locals.length := (List.getElem?_eq_some_iff.mp hl').1
    rw [← any_standsFor_withLocal l hi]
    refine h.locals i l' ?_
    change (σ.locals ++ [l])[i]? = _
    rw [List.getElem?_append_left hi, hl']
  missed := by
    rw [← filterMap_report?_withLocal]
    exact h.missed
  unused := h.unused

/-- A declared local is used by the names behind it that it captures. -/
theorem Opens.declare {α : Type} {bs : List Binding} {f : Slot → Resolve α} (name : Ident) (ty : Ty)
    (watched : Bool) (hf : ∀ slot, Opens isClass bs os idle (f slot)) :
    Opens isClass (⟨name, watched, isUsed name.text os⟩ :: bs) (outside name.text os) idle
      (Resolve.declare name.text ty name.span watched >>= f) := by
  intro σ hσ
  let l : Local := ⟨name.text, ty, name.span, false, watched⟩
  obtain ⟨⟨added, hvisible, hholds⟩, hfollows⟩ := hf σ.locals.length _ (hσ.withLocal l)
  refine ⟨⟨added ++ [(name.text, σ.locals.length)], ?_, ?_⟩, hfollows.of_withLocal⟩
  · rw [List.append_assoc]
    exact hvisible
  · rw [List.reverse_append, List.reverse_singleton, List.singleton_append, List.map_cons]
    refine .cons ?_ hholds
    -- The new local has been marked behind its declaration by the names that it captures.
    have hnew : (withLocal σ l).locals[σ.locals.length]? = some l := List.getElem?_concat_length ..
    obtain ⟨l', hl', hmarked⟩ := hfollows.locals _ l hnew
    rw [any_standsFor_new hσ] at hmarked
    exact ⟨l', hl', hmarked.name, hmarked.span, hmarked.watched, by rw [hmarked.used, Bool.false_or]⟩

/-! ### Blocks -/

theorem reportUnused_cons {slot : Slot} (slots : List Slot) {l : Local}
    (hl : σ.locals[slot]? = some l) :
    reportUnused (slot :: slots) σ = reportUnused slots { σ with
      found := σ.found ++ if l.watched && !l.used then [unusedVariable ⟨l.name, l.span⟩] else [] } := by
  have hget : (get : Resolve Scope) σ = (σ, σ) := rfl
  rw [reportUnused, bind_apply, hget]
  dsimp only
  rw [hl]
  dsimp only
  split
  · rfl
  · rw [List.append_nil]

/-- The locals of some declarations are looked at in turn. -/
theorem reportUnused_eq {slots : List Slot} {bs : List Binding} (h : List.Forall₂ (Holds τ) slots bs) :
    ∀ σ : Scope, σ.locals = τ.locals →
      (reportUnused slots σ).2 = { σ with found := σ.found ++ (Binding.idle bs).map unusedVariable } := by
  induction h with
  | nil =>
    intro σ _
    exact congrArg (fun found => { σ with found }) (List.append_nil _).symm
  | @cons slot b slots bs hholds _ ih =>
    intro σ hlocals
    obtain ⟨l, hl, hname, hspan, hwatched, hused⟩ := hholds
    rw [← hlocals] at hl
    have hrest := ih { σ with
      found := σ.found ++ if b.watched && !b.used then [unusedVariable b.name] else [] } hlocals
    rw [reportUnused_cons slots hl, hname, hspan, hwatched, hused, hrest, List.append_assoc]
    refine congrArg (fun ds => { σ with found := σ.found ++ ds }) ?_
    unfold Binding.idle
    rw [List.filter_cons]
    split <;> rfl

theorem close_eq (outer : List (String × Slot)) (σ : Scope) :
    (close outer σ).2 = { (reportUnused ((σ.visible.take
      (σ.visible.length - outer.length)).reverse.map Prod.snd) σ).2 with visible := outer } := rfl

/-- Behind a block its declarations are hidden, and those reported that are not used. -/
theorem Opens.inScope {α : Type} {bs : List Binding} {x : Resolve α} (h : Opens isClass bs os idle x) :
    Opens isClass [] os (idle ++ Binding.idle bs) (Resolve.inScope x) := by
  intro σ hσ
  obtain ⟨⟨added, hvisible, hholds⟩, hfollows⟩ := h σ hσ
  -- What is closed is what stands on top of the names that were visible in front of the block.
  have hadded : (x σ).2.visible.take ((x σ).2.visible.length - σ.visible.length) = added := by
    rw [hvisible, List.length_append, Nat.add_sub_cancel, List.take_left]
  have hclose : (Resolve.inScope x σ).2 = { (x σ).2 with
      visible := σ.visible
      found := (x σ).2.found ++ (Binding.idle bs).map unusedVariable } := by
    change (close σ.visible (x σ).2).2 = _
    rw [close_eq, hadded, reportUnused_eq hholds _ rfl]
  rw [hclose]
  refine .of_visible rfl ⟨hfollows.size, hfollows.locals, ?_, ?_⟩
  · rw [missed_append, missed_unusedVariable, List.append_nil, hfollows.missed]
  · rw [unused_append, unused_unusedVariable, hfollows.unused, List.map_append, List.append_assoc]

end Resolve

end ReportTemplate.Program
