import ReportTemplate.Library.Standard
import ReportTemplate.Proofs.Machine.Confined
import ReportTemplate.Proofs.Number.Width
import ReportTemplate.Text.Utf8

/-!
# ReportTemplate.Proofs.Library.Limits — what operations give

`Value.Tame V` says of a property of values what a check of sizes leaves to be shown: values without
texts and lists have it, and small texts and short lists of values with it.  The operators keep every such
property, and so do the functions of the standard libraries but for the nine that check no size.
-/

namespace ReportTemplate

/-! ### Sizes of texts -/

namespace Text

theorem utf8ByteSize_ofList (cs : List Char) : (String.ofList cs).utf8ByteSize = byteSize cs := by
  induction cs with
  | nil => rfl
  | cons c cs ih =>
    have hhead : String.ofList (c :: cs) = String.singleton c ++ String.ofList cs := by
      rw [String.singleton_eq_ofList, ← String.ofList_append, List.singleton_append]
    rw [hhead, String.utf8ByteSize_append, String.utf8ByteSize_singleton, ih, byteSize_cons]

theorem byteSize_toList (s : String) : byteSize s.toList = s.utf8ByteSize := by
  rw [← utf8ByteSize_ofList, String.ofList_toList]

theorem byteSize_le_length (cs : List Char) : byteSize cs ≤ 4 * cs.length := by
  induction cs with
  | nil => exact Nat.le_refl _
  | cons c cs ih =>
    have hc := Char.utf8Size_le_four c
    rw [byteSize_cons, List.length_cons]
    omega

theorem byteSize_sublist {cs ds : List Char} (h : cs.Sublist ds) : byteSize cs ≤ byteSize ds := by
  induction h with
  | slnil => exact Nat.le_refl _
  | cons c _ ih => exact Nat.le_trans ih (Nat.le_add_left _ _)
  | cons_cons c _ ih => exact Nat.add_le_add_left ih _

theorem utf8ByteSize_repeat (s : String) (n : Nat) :
    (Nat.repeat (· ++ s) n "").utf8ByteSize = s.utf8ByteSize * n := by
  induction n with
  | zero => rfl
  | succ n ih =>
    show (Nat.repeat (· ++ s) n "" ++ s).utf8ByteSize = _
    rw [String.utf8ByteSize_append, ih, Nat.mul_succ]

theorem trim_sublist (cs : List Char) : (trim cs).Sublist cs := by
  have hend : (trimEnd (trimStart cs)).Sublist (trimStart cs) := by
    have hsuffix := List.dropWhile_sublist isBlank (l := (trimStart cs).reverse)
    simpa [trimEnd] using hsuffix.reverse
  exact hend.trans (List.dropWhile_sublist isBlank)

end Text

/-! ### Results -/

/-- What an operation gives, if it gives a value, has a property. -/
def Gives {α : Type} (Q : α → Prop) (r : Except Refusal α) : Prop := ∀ a, r = .ok a → Q a

namespace Gives

variable {α β : Type} {Q : α → Prop} {R : β → Prop} {r : Except Refusal α}

theorem ok {a : α} (h : Q a) : Gives Q (.ok a) := by
  rintro b ⟨⟩
  exact h

theorem refused (e : Refusal) : Gives Q (.error e) := nofun

theorem any (r : Except Refusal α) : Gives (fun _ => True) r := fun _ _ => trivial

theorem bind {f : α → Except Refusal β} (h : Gives Q r) (hf : ∀ a, Q a → Gives R (f a)) :
    Gives R (r >>= f) := by
  cases r with
  | error e => exact .refused e
  | ok a => exact hf a (h a rfl)

end Gives

/-- A property that only large texts, long lists and handles can lack, and that lists share with their
items. -/
structure Value.Tame (V : Value → Prop) : Prop where
  null : V .null
  bool (b : Bool) : V (.bool b)
  int (n : Int64) : V (.int n)
  float (x : Number.Binary64) : V (.float x)
  str {s : String} (h : s.utf8ByteSize ≤ maxTextSize) : V (.str s)
  shorter {s t : String} (hs : V (.str s)) (h : t.utf8ByteSize ≤ s.utf8ByteSize) : V (.str t)
  list {items : List Value} (h : items.length ≤ maxListLength) (hitems : ∀ v ∈ items, V v) :
    V (.list items)
  items {items : List Value} (h : V (.list items)) : ∀ v ∈ items, V v
  perm {items items' : List Value} (h : V (.list items)) (hperm : items.Perm items') :
    V (.list items')

section

open Value

variable {V : Value → Prop} (hV : Value.Tame V)

include hV

theorem Value.Tame.char (c : Char) : V (.str (String.singleton c)) := by
  refine hV.str ?_
  rw [String.utf8ByteSize_singleton]
  exact Nat.le_trans (Char.utf8Size_le_four c) (by decide)

/-! ### Operators -/

theorem gives_exact (n : Int) : Gives V (Value.exact n) := by
  unfold Value.exact
  split
  · exact .ok (hV.int _)
  · exact .refused _

theorem gives_unary (op : Syntax.UnaryOp) (v : Value) : Gives V (Value.unary op v) := by
  unfold Value.unary
  split
  · exact gives_exact hV _
  · exact .ok (hV.float _)
  · exact .refused _
  · exact .ok (hV.bool _)
  · exact .refused _

theorem gives_onInts (op : Syntax.BinaryOp) (a b : Int64) : Gives V (Value.onInts op a b) := by
  unfold Value.onInts
  split
  · exact gives_exact hV _
  · exact gives_exact hV _
  · exact gives_exact hV _
  · split
    · exact .refused _
    · exact gives_exact hV _
  · split
    · exact .refused _
    · split
      · exact gives_exact hV _
      · exact .refused _
  · exact .ok (hV.bool _)

theorem gives_onFloats (op : Syntax.BinaryOp) (a b : Number.Binary64) :
    Gives V (Value.onFloats op a b) := by
  unfold Value.onFloats
  split
  case h_6 =>
    split
    · exact .ok (hV.bool _)
    · exact .refused _
  all_goals exact .ok (hV.float _)

theorem gives_onNumbers (op : Syntax.BinaryOp) (a b : Value) :
    Gives V (Value.onNumbers op a b) := by
  unfold Value.onNumbers
  split
  · exact gives_onInts hV op _ _
  · split
    · exact gives_onFloats hV op _ _
    · exact .refused _

theorem gives_joinTexts (a b : Value) : Gives V (Value.joinTexts a b) := by
  unfold Value.joinTexts
  dsimp only
  split
  · exact .refused _
  next hsize => exact .ok (hV.str (Nat.le_of_not_lt hsize))

theorem gives_joinLists {as bs : List Value} (ha : V (.list as)) (hb : V (.list bs)) :
    Gives V (Value.joinLists as bs) := by
  unfold Value.joinLists
  split
  · exact .refused _
  next hsize =>
    refine .ok (hV.list ?_ (List.forall_mem_append.mpr ⟨hV.items ha, hV.items hb⟩))
    rw [List.length_append]
    exact Nat.le_of_not_lt hsize

theorem gives_plus {a b : Value} (ha : V a) (hb : V b) : Gives V (Value.plus a b) := by
  unfold Value.plus
  split
  · exact gives_joinTexts hV _ _
  · exact gives_joinTexts hV _ _
  · exact gives_joinLists hV ha hb
  · exact gives_onNumbers hV _ _ _

theorem gives_order (op : Syntax.BinaryOp) (a b : Value) : Gives V (Value.order op a b) := by
  unfold Value.order
  split
  · exact .ok (hV.bool _)
  · exact gives_onNumbers hV op _ _

theorem gives_binary (op : Syntax.BinaryOp) {a b : Value} (ha : V a) (hb : V b) :
    Gives V (Value.binary op a b) := by
  unfold Value.binary
  split
  · exact .ok (hV.bool _)
  · exact .ok (hV.bool _)
  · exact gives_plus hV ha hb
  · exact gives_order hV _ a b
  · exact gives_order hV _ a b
  · exact gives_order hV _ a b
  · exact gives_order hV _ a b
  · exact gives_onNumbers hV op a b

theorem gives_index {target : Value} (ht : V target) (place : Value) :
    Gives V (Value.index target place) := by
  unfold Value.index
  split
  · split
    · exact .refused _
    · split
      · split
        next v hv => exact .ok (hV.items ht v (List.mem_of_getElem? hv))
        next => exact .refused _
      · split
        · exact .ok (hV.char _)
        · exact .refused _
      · exact .refused _
  · exact .refused _

theorem gives_items {v : Value} (hv : V v) : Gives (fun vs => ∀ x ∈ vs, V x) v.items := by
  unfold Value.items
  split
  · exact .ok (hV.items hv)
  · refine .ok fun x hx => ?_
    obtain ⟨c, -, rfl⟩ := List.mem_map.mp hx
    exact hV.char c
  · exact .refused _

/-- The operations of the language keep a tame property. -/
theorem Value.Tame.closed : Value.Closed V where
  null := hV.null
  bool := hV.bool
  int := hV.int
  unary _ h := gives_unary hV _ _ _ h
  binary ha hb h := gives_binary hV _ ha hb _ h
  index ht h := gives_index hV ht _ _ h
  items hv h := gives_items hV hv _ h

end

/-! ### Library functions -/

/-- On arguments with one property a function gives values with another. -/
def Function.Maps (V W : Value → Prop) (g : Function) : Prop :=
  ∀ args r, (∀ a ∈ args, V a) → g.call args = .ok r → W r

section

variable {V W : Value → Prop}

theorem maps_unary (name : String) {g : Value → Except Refusal Value}
    (h : ∀ a, V a → Gives W (g a)) : (Function.unary name g).Maps V W := by
  intro args r hargs hcall
  unfold Function.unary at hcall
  dsimp only at hcall
  split at hcall
  next a => exact h a (hargs a List.mem_cons_self) r hcall
  next => cases hcall

theorem maps_binary (name : String) {g : Value → Value → Except Refusal Value}
    (h : ∀ a b, V a → V b → Gives W (g a b)) : (Function.binary name g).Maps V W := by
  intro args r hargs hcall
  unfold Function.binary at hcall
  dsimp only at hcall
  split at hcall
  next a b => exact h a b (hargs a (by simp)) (hargs b (by simp)) r hcall
  next => cases hcall

theorem maps_ternary (name : String) {g : Value → Value → Value → Except Refusal Value}
    (h : ∀ a b c, V a → V b → V c → Gives W (g a b c)) : (Function.ternary name g).Maps V W := by
  intro args r hargs hcall
  unfold Function.ternary at hcall
  dsimp only at hcall
  split at hcall
  next a b c => exact h a b c (hargs a (by simp)) (hargs b (by simp)) (hargs c (by simp)) r hcall
  next => cases hcall

end

namespace Library

/-- The functions of the standard libraries that do not check how large a text or list they give. -/
def uncheckedFunctions : List Function := [
  .unary "str" Core.str, .unary "upper" Texts.upper, .unary "lower" Texts.lower,
  .ternary "replace" Texts.replace, .binary "split" Texts.split, .binary "join" Texts.join,
  .binary "pad_left" Texts.padLeft, .binary "pad_right" Texts.padRight,
  .binary "push" Collections.push]

/-- The functions of the standard libraries that check sizes, or need not. -/
def checkedFunctions : List Function := [
  .unary "len" Core.len, .unary "int" Core.int, .unary "float" Core.float,
  .binary "contains" Core.contains, .binary "min" Core.min, .binary "max" Core.max,
  .unary "abs" Core.abs, .unary "fail" Core.fail, .unary "trim" Texts.trim,
  .binary "starts_with" Texts.startsWith, .binary "repeat" Texts.repeated,
  .binary "format_number" Texts.formatNumber, .unary "first" Collections.first,
  .unary "last" Collections.last, .unary "sum" Collections.sum,
  .unary "reverse" Collections.reverse, .unary "sort" Collections.sort,
  .binary "range" Collections.range]

def unchecked : List String := uncheckedFunctions.map Function.name

/-- Every function of the standard libraries stands in one of the two lists. -/
theorem checked_or_unchecked : ∀ l ∈ Catalog.standard.libraries, ∀ g ∈ l.functions,
    g ∈ checkedFunctions ∨ g ∈ uncheckedFunctions := by
  simp [Catalog.standard, playground, template, core, text, collections, document, logging,
    checkedFunctions, uncheckedFunctions]

theorem mem_checked {l : Library} (hl : l ∈ Catalog.standard.libraries) {g : Function}
    (hg : g ∈ l.functions) (hname : g.name ∉ unchecked) : g ∈ checkedFunctions :=
  (checked_or_unchecked l hl g hg).resolve_right fun h => hname (List.mem_map_of_mem h)

theorem gives_expectStr (v : Value) : Gives (fun s => v = .str s) (expectStr v) := by
  unfold expectStr
  split
  · exact .ok rfl
  · exact .refused _

theorem gives_checkSize (what : String) (limit size : Nat) :
    Gives (fun n => n = size ∧ size ≤ limit) (checkSize what limit size) := by
  unfold checkSize
  split
  next h => exact .ok ⟨rfl, h⟩
  · exact .refused _

section

variable {V : Value → Prop} (hV : Value.Tame V)

include hV

omit hV in
theorem gives_expectList {v : Value} (hv : V v) :
    Gives (fun items => V (.list items)) (expectList v) := by
  unfold expectList
  split
  · exact .ok hv
  · exact .refused _

/-! #### Conversions, size, search and order -/

namespace Core

theorem gives_len (v : Value) : Gives V (len v) := by
  unfold len
  split
  · exact .ok (hV.int _)
  · exact .ok (hV.int _)
  · exact .refused _

theorem gives_int (v : Value) : Gives V (int v) := by
  unfold int
  split
  · exact .ok (hV.int _)
  · split
    · exact .ok (hV.int _)
    · exact .refused _
  · exact .ok (hV.int _)
  · split
    · exact .ok (hV.int _)
    · exact .refused _
  · exact .refused _

theorem gives_float (v : Value) : Gives V (float v) := by
  unfold float
  split
  · split
    · exact .ok (hV.float _)
    · exact .refused _
  · exact (Gives.any _).bind fun _ _ => .ok (hV.float _)

theorem gives_contains (v wanted : Value) : Gives V (contains v wanted) := by
  unfold contains
  split
  · exact (Gives.any _).bind fun _ _ => .ok (hV.bool _)
  · exact .ok (hV.bool _)
  · exact .refused _

omit hV in
/-- One of two values that are numbers. -/
theorem gives_chosen {a b : Value} (ha : V a) (hb : V b)
    (c : Number.Binary64 → Number.Binary64 → Bool) :
    Gives V (do
      let x ← expectNumber a
      let y ← expectNumber b
      pure (if c x y then b else a)) := by
  refine (Gives.any _).bind fun x _ => (Gives.any _).bind fun y _ => .ok ?_
  split
  · exact hb
  · exact ha

omit hV in
theorem gives_min {a b : Value} (ha : V a) (hb : V b) : Gives V (min a b) := by
  have hchosen := gives_chosen ha hb fun x y => decide (y.compare? x = some .lt)
  simp only [decide_eq_true_eq] at hchosen
  exact hchosen

omit hV in
theorem gives_max {a b : Value} (ha : V a) (hb : V b) : Gives V (max a b) := by
  have hchosen := gives_chosen ha hb fun x y => decide (y.compare? x = some .gt)
  simp only [decide_eq_true_eq] at hchosen
  exact hchosen

theorem gives_abs (v : Value) : Gives V (abs v) := by
  unfold abs
  split
  · exact gives_exact hV _
  · exact .ok (hV.float _)
  · exact .refused _

end Core

/-! #### Texts -/

namespace Texts

theorem gives_trim {v : Value} (hv : V v) : Gives V (trim v) := by
  refine (gives_expectStr v).bind fun s hs => .ok ?_
  rw [hs] at hv
  refine hV.shorter hv ?_
  rw [Text.utf8ByteSize_ofList, ← Text.byteSize_toList]
  exact Text.byteSize_sublist (Text.trim_sublist _)

theorem gives_startsWith (v first : Value) : Gives V (startsWith v first) :=
  (Gives.any _).bind fun _ _ => (Gives.any _).bind fun _ _ => .ok (hV.bool _)

theorem gives_repeated (v count : Value) : Gives V (repeated v count) := by
  refine (Gives.any _).bind fun s _ => (Gives.any _).bind fun n _ =>
    (gives_checkSize _ _ _).bind fun _ hsize => .ok (hV.str ?_)
  split
  · exact Nat.zero_le _
  · rw [Text.utf8ByteSize_repeat]
    exact hsize.2

theorem gives_formatNumber (v places : Value) : Gives V (formatNumber v places) := by
  refine (Gives.any _).bind fun x _ => (Gives.any _).bind fun n _ =>
    (gives_checkSize _ _ _).bind fun n' hn => .ok (hV.str ?_)
  have hplaces : n' ≤ 64 := hn.1 ▸ hn.2
  have hlength := x.length_fixed_le hplaces
  rw [← Text.byteSize_toList]
  calc Text.byteSize (x.fixed n').toList ≤ 4 * (x.fixed n').toList.length := Text.byteSize_le_length _
    _ ≤ 4 * 1200 := Nat.mul_le_mul_left 4 hlength
    _ ≤ maxTextSize := by decide

end Texts

/-! #### Lists -/

namespace Collections

/-- One of some items, if there is one, and null otherwise. -/
theorem getD_null {items : List Value} (hitems : V (.list items)) {o : Option Value}
    (ho : ∀ x ∈ o, x ∈ items) : V (o.getD .null) := by
  cases o with
  | none => exact hV.null
  | some x => exact hV.items hitems x (ho x rfl)

theorem gives_first {v : Value} (hv : V v) : Gives V (first v) :=
  (gives_expectList hv).bind fun _ hitems =>
    .ok (getD_null hV hitems fun _ hx => List.mem_of_mem_head? hx)

theorem gives_last {v : Value} (hv : V v) : Gives V (last v) :=
  (gives_expectList hv).bind fun _ hitems =>
    .ok (getD_null hV hitems fun _ hx => List.mem_of_getLast? hx)

theorem gives_sumInts (total : Int64) (vs : List Value) : Gives V (sumInts total vs) := by
  induction vs generalizing total with
  | nil => exact .ok (hV.int _)
  | cons v vs ih =>
    unfold sumInts
    split
    · exact .refused _
    · split
      · exact ih _
      · exact .refused _

theorem gives_sumFloats (total : Number.Binary64) (vs : List Value) :
    Gives V (sumFloats total vs) := by
  induction vs generalizing total with
  | nil => exact .ok (hV.float _)
  | cons v vs ih =>
    unfold sumFloats
    split
    · exact .refused _
    · exact ih _

theorem gives_sum (v : Value) : Gives V (sum v) := by
  refine (Gives.any _).bind fun items _ => ?_
  split
  · exact gives_sumInts hV _ _
  · exact gives_sumFloats hV _ _

theorem gives_reverse {v : Value} (hv : V v) : Gives V (reverse v) :=
  (gives_expectList hv).bind fun items hitems => .ok (hV.perm hitems (List.reverse_perm items).symm)

theorem gives_sort {v : Value} (hv : V v) : Gives V (sort v) := by
  refine (gives_expectList hv).bind fun items hitems => ?_
  split
  · exact .ok (hV.perm hitems (List.mergeSort_perm items _).symm)
  · split
    · exact .ok (hV.perm hitems (List.mergeSort_perm items _).symm)
    · exact .refused _

theorem gives_range (start stop : Value) : Gives V (range start stop) := by
  refine (Gives.any _).bind fun a _ => (Gives.any _).bind fun b _ =>
    (gives_checkSize _ _ _).bind fun n hn => .ok (hV.list ?_ fun x hx => ?_)
  · rw [List.length_map, List.length_range]
    exact hn.1 ▸ hn.2
  · obtain ⟨i, -, rfl⟩ := List.mem_map.mp hx
    exact hV.int _

end Collections

/-- The functions that check sizes, or need not, keep a tame property. -/
theorem closed_checked : ∀ g ∈ checkedFunctions, g.Closed V := by
  unfold checkedFunctions
  simp only [List.forall_mem_cons]
  exact ⟨maps_unary _ fun v _ => Core.gives_len hV v,
    maps_unary _ fun v _ => Core.gives_int hV v,
    maps_unary _ fun v _ => Core.gives_float hV v,
    maps_binary _ fun v w _ _ => Core.gives_contains hV v w,
    maps_binary _ fun _ _ ha hb => Core.gives_min ha hb,
    maps_binary _ fun _ _ ha hb => Core.gives_max ha hb,
    maps_unary _ fun v _ => Core.gives_abs hV v,
    maps_unary _ fun _ _ => .refused _,
    maps_unary _ fun _ hv => Texts.gives_trim hV hv,
    maps_binary _ fun v w _ _ => Texts.gives_startsWith hV v w,
    maps_binary _ fun v w _ _ => Texts.gives_repeated hV v w,
    maps_binary _ fun v w _ _ => Texts.gives_formatNumber hV v w,
    maps_unary _ fun _ ha => Collections.gives_first hV ha,
    maps_unary _ fun _ ha => Collections.gives_last hV ha,
    maps_unary _ fun v _ => Collections.gives_sum hV v,
    maps_unary _ fun _ ha => Collections.gives_reverse hV ha,
    maps_unary _ fun _ ha => Collections.gives_sort hV ha,
    maps_binary _ fun v w _ _ => Collections.gives_range hV v w,
    nofun⟩

end

end Library

end ReportTemplate
