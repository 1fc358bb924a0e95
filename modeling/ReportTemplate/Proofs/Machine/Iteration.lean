import ReportTemplate.Library.Core
import ReportTemplate.Proofs.Machine.Halts

/-!
# ReportTemplate.Proofs.Machine.Iteration — the items of a string or a list

A string has its characters as items, a list its values.  `len` counts them, an index picks one of them,
and a loop runs its body with each of them in turn.  The items are those of the value as it was when the
loop began, whatever the body stores.
-/

namespace ReportTemplate

/-! ### Length and index -/

namespace Text

theorem get?_nextn_startPos (s : String) (n : Nat) : (s.startPos.nextn n).get? = s.toList[n]? := by
  have hsplits := s.splits_nextn_startPos n
  rw [String.Pos.get?_eq_dif]
  split
  next hend =>
    have hdrop := hsplits.eq_endPos_iff.mp hend
    rw [String.ofList_eq_empty_iff, List.drop_eq_nil_iff] at hdrop
    rw [List.getElem?_eq_none hdrop]
  next hend =>
    obtain ⟨rest, hdrop⟩ := hsplits.exists_eq_singleton_append hend
    have hdrop := congrArg String.toList hdrop
    rw [String.toList_ofList, String.toList_append, String.toList_singleton] at hdrop
    have hfirst := congrArg (·[0]?) hdrop
    simpa using hfirst.symm

end Text

namespace Value

variable {v : Value} {vs : List Value}

theorem items_isSome (h : v.kind = .string ∨ v.kind = .list) : ∃ vs, v.items = .ok vs := by
  cases v <;> simp_all [kind, items]

theorem len_items (h : v.items = .ok vs) :
    Library.Core.len v = .ok (.int (Int64.ofNat vs.length)) := by
  cases v <;> cases h
  · rw [List.length_map, String.length_toList]
    rfl
  · rfl

/-- An index picks an item if it is the place of one. -/
theorem index_items (h : v.items = .ok vs) (i : Int64) : (index v (.int i)).toOption =
    if i.toInt < 0 then none else vs[i.toInt.toNat]? := by
  unfold index
  dsimp only
  by_cases hneg : i.toInt < 0
  · rw [if_pos hneg, if_pos hneg]
    rfl
  · rw [if_neg hneg, if_neg hneg]
    cases v <;> cases h
    · dsimp only
      rw [Text.get?_nextn_startPos, List.getElem?_map]
      cases (String.toList _)[i.toInt.toNat]? <;> rfl
    · dsimp only
      cases vs[i.toInt.toNat]? <;> rfl

theorem index_error_iff (h : v.items = .ok vs) (i : Int64) :
    (∃ r, index v (.int i) = .error r) ↔ i.toInt < 0 ∨ (vs.length : Int) ≤ i.toInt := by
  have hnone : (∃ r, index v (.int i) = .error r) ↔ (index v (.int i)).toOption = none := by
    cases index v (.int i) <;> simp [Except.toOption]
  rw [hnone, index_items h]
  by_cases hneg : i.toInt < 0
  · simp [hneg]
  · rw [if_neg hneg, List.getElem?_eq_none_iff]
    omega

theorem index_eq_getElem? (h : v.items = .ok vs) {i : Int64} {k : Nat} (hk : i.toInt = k) :
    (index v (.int i)).toOption = vs[k]? := by
  have hnat : i.toInt.toNat = k := by omega
  rw [index_items h, if_neg (by omega), hnat]

/-! ### Characters put together -/

theorem add_texts (a b : String) : binary .add (str a) (str b) =
    if maxTextSize < (a ++ b).utf8ByteSize then .error (.tooLarge "string" maxTextSize)
    else .ok (str (a ++ b)) := by
  show joinTexts (str a) (str b) = _
  unfold joinTexts
  simp only [writeOn, String.empty_append]

/-- The size on the way is never more than that of the whole text. -/
theorem add_chars (cs : List Char) (text : String)
    (h : (text ++ String.ofList cs).utf8ByteSize ≤ maxTextSize) :
    (cs.map fun c => str (String.singleton c)).foldlM (binary .add) (str text) =
      .ok (str (text ++ String.ofList cs)) := by
  induction cs generalizing text with
  | nil =>
    rw [String.ofList_nil, String.append_empty]
    rfl
  | cons c cs ih =>
    have hcons : text ++ String.ofList (c :: cs) =
        text ++ String.singleton c ++ String.ofList cs := by
      rw [String.append_assoc, String.ofList_cons]
    rw [hcons] at h ⊢
    have hfirst : ¬ maxTextSize < (text ++ String.singleton c).utf8ByteSize := by
      rw [String.utf8ByteSize_append] at h
      omega
    rw [List.map_cons, List.foldlM_cons, add_texts, if_neg hfirst]
    exact ih _ h

end Value

namespace Machine

open Program (Expr Stmt Slot)

/-! ### Loops -/

section

variable (f : Frame) (slot : Slot) (body : List Stmt)

/-- The body begins with the item at a place: it has been run to its end with each item in front of
that, and the slot has been given the item. -/
def BeginsPass (vs : List Value) (s : State) (k : Nat) (t : State) : Prop :=
  ∃ v u, vs[k]? = some v ∧ Through (Visits f slot body) (vs.take k) s u ∧ store slot v u = .ok () t

/-- How a loop over items ends: it has run its body to its end once with each of them, or it is left in
one of the passes. -/
inductive LoopEnds (vs : List Value) (s : State) : EStateM.Result Halt State Flow → Prop
  | done {u : State} (passes : Through (Visits f slot body) vs s u) : LoopEnds vs s (.ok .next u)
  | returned {k : Nat} {t u : State} {w : Value} (begins : BeginsPass f slot body vs s k t)
      (ends : execAll f body t = .ok (.returned w) u) : LoopEnds vs s (.ok (.returned w) u)
  | halted {k : Nat} {t u : State} {why : Halt} (begins : BeginsPass f slot body vs s k t)
      (ends : execAll f body t = .error why u) : LoopEnds vs s (.error why u)
  /-- The frame does not have the slot. -/
  | broken {k : Nat} {u : State} (more : k < vs.length)
      (earlier : Through (Visits f slot body) (vs.take k) s u) (missing : ¬ slot < u.locals.size) :
      LoopEnds vs s (.error .broken u)

end

variable {f : Frame} {slot : Slot} {body : List Stmt} {vs : List Value} {v : Value} {s t u : State}

theorem BeginsPass.head (h : store slot v s = .ok () t) : BeginsPass f slot body (v :: vs) s 0 t :=
  ⟨v, s, rfl, .nil, h⟩

theorem BeginsPass.tail {k : Nat} (first : Visits f slot body v s t)
    (h : BeginsPass f slot body vs t k u) : BeginsPass f slot body (v :: vs) s (k + 1) u := by
  obtain ⟨w, m, hw, hearlier, hstore⟩ := h
  exact ⟨w, m, hw, .cons first hearlier, hstore⟩

/-- A loop that runs to its end begins a pass with each of the items. -/
theorem beginsPass_of_through (h : Through (Visits f slot body) vs s u) {k : Nat} (hk : k < vs.length) :
    ∃ t, BeginsPass f slot body vs s k t := by
  induction h generalizing k with
  | nil => exact absurd hk (Nat.not_lt_zero k)
  | cons first _ ih =>
    cases k with
    | zero =>
      obtain ⟨t, hstore, -⟩ := first
      exact ⟨t, .head hstore⟩
    | succ k =>
      obtain ⟨t, hbegins⟩ := ih (Nat.lt_of_succ_lt_succ hk)
      exact ⟨t, hbegins.tail first⟩

theorem store_ok (h : store slot v s = .ok () t) :
    slot < s.locals.size ∧ t = { s with locals := s.locals.setIfInBounds slot (some v) } := by
  by_cases hslot : slot < s.locals.size
  · rw [store_eq hslot] at h
    cases h
    exact ⟨hslot, rfl⟩
  · rw [store_broken hslot] at h
    cases h

theorem store_halted {why : Halt} (h : store slot v s = .error why t) :
    ¬ slot < s.locals.size ∧ why = .broken ∧ t = s := by
  by_cases hslot : slot < s.locals.size
  · rw [store_eq hslot] at h
    cases h
  · rw [store_broken hslot] at h
    cases h
    exact ⟨hslot, rfl, rfl⟩

/-- The body finds the item in the slot. -/
theorem BeginsPass.load {k : Nat} (h : BeginsPass f slot body vs s k t) :
    ∃ v, vs[k]? = some v ∧ Machine.load slot t = .ok v t := by
  obtain ⟨v, u, hv, -, hstore⟩ := h
  obtain ⟨hslot, rfl⟩ := store_ok hstore
  exact ⟨v, hv, load_eq (Array.getElem?_setIfInBounds_self_of_lt hslot)⟩

theorem LoopEnds.tail {r : EStateM.Result Halt State Flow} (first : Visits f slot body v s t)
    (h : LoopEnds f slot body vs t r) : LoopEnds f slot body (v :: vs) s r := by
  cases h with
  | done passes => exact .done (.cons first passes)
  | returned begins ends => exact .returned (begins.tail first) ends
  | halted begins ends => exact .halted (begins.tail first) ends
  | broken more earlier missing => exact .broken (Nat.succ_lt_succ more) (.cons first earlier) missing

theorem loopEnds_loopOver (vs : List Value) (s : State) :
    LoopEnds f slot body vs s (loopOver slot (execAll f body) vs s) := by
  induction vs generalizing s with
  | nil => exact .done .nil
  | cons v vs ih =>
    cases hr : loopOver slot (execAll f body) (v :: vs) s with
    | ok flow u =>
      obtain ⟨_, t, hstore, hpass⟩ := bind_ok hr
      obtain ⟨flow', w, hbody, hrest⟩ := bind_ok hpass
      cases flow' with
      | next => exact hrest ▸ (ih w).tail ⟨t, hstore, hbody⟩
      | returned x =>
        cases hrest
        exact .returned (.head hstore) hbody
    | error why u =>
      rcases bind_error hr with hstore | ⟨_, t, hstore, hpass⟩
      · obtain ⟨hmissing, rfl, rfl⟩ := store_halted hstore
        exact .broken (Nat.zero_lt_succ _) .nil hmissing
      rcases bind_error hpass with hbody | ⟨flow', w, hbody, hrest⟩
      · exact .halted (.head hstore) hbody
      · cases flow' with
        | next => exact hrest ▸ (ih w).tail ⟨t, hstore, hbody⟩
        | returned x => cases hrest

/-- A loop over what an expression gives is a loop over its items. -/
theorem exec_forEach {line : Nat} {items : Expr} (hv : eval f items s = .ok v t)
    (hvs : v.items = .ok vs) :
    exec f (.forEach line slot items body) s = loopOver slot (execAll f body) vs t := by
  rw [exec]
  show EStateM.bind (eval f items) _ s = _
  rw [EStateM.bind, hv]
  show (attempt f line .refused v.items >>= loopOver slot (execAll f body)) t = _
  rw [hvs]
  rfl

theorem loopEnds_forEach {line : Nat} {items : Expr} (hv : eval f items s = .ok v t)
    (hvs : v.items = .ok vs) :
    LoopEnds f slot body vs t (exec f (.forEach line slot items body) s) := by
  rw [exec_forEach hv hvs]
  exact loopEnds_loopOver vs t

/-- **Length, index and iteration agree.**  A string or a list has items.  `len` gives their number, an
index is refused if and only if it is negative or not less than that number, and a loop runs its body once
with each of the items, unless it is left in one of the passes.  Each pass begins with the item that its
number picks as an index from the value, as it was when the loop began.  The items of a string, put
together with `+`, give the string. -/
theorem iteration_agrees {v : Value} (h : v.kind = .string ∨ v.kind = .list) :
    ∃ vs : List Value,
      (Library.Core.len v = .ok (.int (Int64.ofNat vs.length)) ∧
        ((vs.length : Int) ≤ Int64.maxValue.toInt → (Int64.ofNat vs.length).toInt = vs.length)) ∧
      (∀ i : Int64, (∃ r, Value.index v (.int i) = .error r) ↔
        i.toInt < 0 ∨ (vs.length : Int) ≤ i.toInt) ∧
      (∀ {f : Frame} {line : Nat} {slot : Slot} {items : Expr} {body : List Stmt} {s t : State},
        eval f items s = .ok v t →
          LoopEnds f slot body vs t (exec f (.forEach line slot items body) s) ∧
          ∀ {k : Nat} {u : State}, BeginsPass f slot body vs t k u → ∀ i : Int64, i.toInt = k →
            ∃ x, Value.index v (.int i) = .ok x ∧ load slot u = .ok x u) ∧
      ∀ text : String, v = .str text → text.utf8ByteSize ≤ maxTextSize →
        vs.foldlM (Value.binary .add) (.str "") = .ok v := by
  obtain ⟨vs, hvs⟩ := Value.items_isSome h
  have hfits : (vs.length : Int) ≤ Int64.maxValue.toInt →
      (Int64.ofNat vs.length).toInt = vs.length := by
    intro hle
    rw [Int64.toInt_maxValue] at hle
    exact Int64.toInt_ofNat_of_lt (by omega)
  refine ⟨vs, ⟨Value.len_items hvs, hfits⟩, Value.index_error_iff hvs, ?_, ?_⟩
  · intro f line slot items body s t hv
    refine ⟨loopEnds_forEach hv hvs, fun {k u} hbegins i hi => ?_⟩
    obtain ⟨x, hx, hload⟩ := hbegins.load
    have hindex := Value.index_eq_getElem? hvs hi
    rw [hx] at hindex
    cases hpicked : Value.index v (.int i) with
    | ok _ =>
      rw [hpicked] at hindex
      cases hindex
      exact ⟨x, rfl, hload⟩
    | error _ =>
      rw [hpicked] at hindex
      cases hindex
  · rintro text rfl hsize
    cases hvs
    have hempty : "" ++ String.ofList text.toList = text := by
      rw [String.empty_append, String.ofList_toList]
    have hadd := Value.add_chars text.toList "" (by rwa [hempty])
    rwa [hempty] at hadd

/-- A frame with a string of two characters and three bytes, and a slot for the item of a loop. -/
def threeBytes : State := ⟨#[some (.str "né"), none], {}⟩

/-- A body that overwrites both the string and the item. -/
def overwriting : List Stmt := [.store 2 0 (.const 2 .null), .store 3 1 (.const 3 .null)]

/-- The loop over the string runs to its end, and its second pass begins with the second character. -/
theorem iteration_agrees_three_bytes : (Value.str "né").kind = .string ∧ ∃ vs : List Value,
    Library.Core.len (.str "né") = .ok (.int (Int64.ofNat vs.length)) ∧
      (∀ i : Int64, (∃ r, Value.index (.str "né") (.int i) = .error r) ↔
        i.toInt < 0 ∨ (vs.length : Int) ≤ i.toInt) ∧
      LoopEnds ⟨"T.f", 0, none⟩ 1 overwriting vs threeBytes
        (.ok .next ⟨#[some .null, some .null], {}⟩) ∧
      (∃ u, BeginsPass ⟨"T.f", 0, none⟩ 1 overwriting vs threeBytes 1 u ∧
        load 1 u = .ok (.str "é") u) ∧
      vs.foldlM (Value.binary .add) (.str "") = .ok (.str "né") := by
  obtain ⟨vs, ⟨hlen, -⟩, hindex, hloops, hadd⟩ := iteration_agrees (v := .str "né") (.inl rfl)
  have hvalue : eval ⟨"T.f", 0, none⟩ (.slot 1 0) threeBytes = .ok (.str "né") threeBytes := rfl
  obtain ⟨hends, hpasses⟩ := @hloops _ 1 1 _ overwriting _ _ hvalue
  have hrun : exec ⟨"T.f", 0, none⟩ (.forEach 1 1 (.slot 1 0) overwriting) threeBytes =
      .ok .next ⟨#[some .null, some .null], {}⟩ := rfl
  rw [hrun] at hends
  have hsecond : Value.index (.str "né") (.int 1) = .ok (.str "é") := rfl
  have hlong : 1 < vs.length := by
    refine Nat.lt_of_not_le fun hshort => ?_
    obtain ⟨r, hr⟩ := (hindex 1).mpr (.inr (Int.ofNat_le.mpr hshort))
    rw [hsecond] at hr
    cases hr
  obtain ⟨u, hbegins⟩ : ∃ u, BeginsPass ⟨"T.f", 0, none⟩ 1 overwriting vs threeBytes 1 u := by
    cases hends with
    | done passes => exact beginsPass_of_through passes hlong
  obtain ⟨x, hx, hload⟩ := hpasses hbegins 1 rfl
  obtain rfl := Except.ok.inj (hsecond.symm.trans hx)
  exact ⟨rfl, vs, hlen, hindex, hends, ⟨u, hbegins, hload⟩, hadd "né" rfl (by decide)⟩

end Machine

end ReportTemplate
