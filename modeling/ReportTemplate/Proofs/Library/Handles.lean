import ReportTemplate.Proofs.Library.Limits

/-!
# ReportTemplate.Proofs.Library.Handles — operations make no handles

An operator or a function of the standard libraries gives a value that holds the document or the log, at
any depth of lists, only if one of its operands or arguments does.
-/

namespace ReportTemplate

/-- What a template can hand on but not make. -/
inductive Handle where
  | document
  | log
deriving DecidableEq

def Handle.value : Handle → Value
  | document => .document
  | log => .log

namespace Value

/-- A handle occurs in a value, at some depth of lists. -/
inductive Holds (handle : Handle) : Value → Prop
  | here : Holds handle handle.value
  | inside {items : List Value} {v : Value} (mem : v ∈ items) (part : Holds handle v) :
    Holds handle (.list items)

variable {handle : Handle}

/-- A handle occurs nowhere in a value. -/
def Free (handle : Handle) (v : Value) : Prop := ¬ Holds handle v

theorem free_null : Free handle .null := by
  intro h
  cases handle <;> cases h

theorem free_bool (b : Bool) : Free handle (.bool b) := by
  intro h
  cases handle <;> cases h

theorem free_int (n : Int64) : Free handle (.int n) := by
  intro h
  cases handle <;> cases h

theorem free_float (x : Number.Binary64) : Free handle (.float x) := by
  intro h
  cases handle <;> cases h

theorem free_str (s : String) : Free handle (.str s) := by
  intro h
  cases handle <;> cases h

theorem free_list {items : List Value} : Free handle (.list items) ↔ ∀ v ∈ items, Free handle v := by
  constructor
  · exact fun h v hv hholds => h (.inside hv hholds)
  · intro h hholds
    generalize hlist : Value.list items = v at hholds
    cases hholds with
    | here => cases handle <;> cases hlist
    | inside mem part =>
      obtain rfl := Value.list.inj hlist
      exact h _ mem part

theorem not_free_value : ¬ Free handle handle.value := fun h => h .here

end Value

/-- Only handles, and lists with handles in them, are not free of handles. -/
theorem tame_free (handle : Handle) : Value.Tame (Value.Free handle) where
  null := Value.free_null
  bool := Value.free_bool
  int := Value.free_int
  float := Value.free_float
  str _ := Value.free_str _
  shorter _ _ := Value.free_str _
  list _ hitems := Value.free_list.mpr hitems
  items h := Value.free_list.mp h
  perm h hperm := Value.free_list.mpr fun v hv => Value.free_list.mp h v (hperm.mem_iff.mpr hv)

/-- The operations of the language make no handles. -/
theorem closed_free (handle : Handle) : Value.Closed (Value.Free handle) := (tame_free handle).closed

/-! ### Functions that check no size -/

section

open Value

variable {handle : Handle}

namespace Library

namespace Texts

theorem free_onText (f : List Char → List Char) (v : Value) : Gives (Free handle) (onText f v) :=
  (Gives.any _).bind fun _ _ => .ok (free_str _)

theorem free_replace (v wanted instead : Value) : Gives (Free handle) (replace v wanted instead) :=
  (Gives.any _).bind fun _ _ => (Gives.any _).bind fun _ _ => (Gives.any _).bind fun _ _ =>
    .ok (free_str _)

theorem free_split (v separator : Value) : Gives (Free handle) (split v separator) := by
  refine (Gives.any _).bind fun s _ => (Gives.any _).bind fun a _ => ?_
  split
  · exact .refused _
  · refine .ok (free_list.mpr fun x hx => ?_)
    obtain ⟨piece, -, rfl⟩ := List.mem_map.mp hx
    exact free_str _

theorem free_join (v separator : Value) : Gives (Free handle) (join v separator) :=
  (Gives.any _).bind fun _ _ => (Gives.any _).bind fun _ _ => .ok (free_str _)

theorem free_padLeft (v width : Value) : Gives (Free handle) (padLeft v width) :=
  (Gives.any _).bind fun _ _ => .ok (free_str _)

theorem free_padRight (v width : Value) : Gives (Free handle) (padRight v width) :=
  (Gives.any _).bind fun _ _ => .ok (free_str _)

end Texts

theorem Collections.free_push {v item : Value} (hv : Free handle v) (hitem : Free handle item) :
    Gives (Free handle) (push v item) :=
  (gives_expectList hv).bind fun _ hitems => .ok (free_list.mpr
    (List.forall_mem_append.mpr ⟨free_list.mp hitems, List.forall_mem_singleton.mpr hitem⟩))

theorem closed_unchecked : ∀ g ∈ uncheckedFunctions, g.Closed (Free handle) := by
  unfold uncheckedFunctions
  simp only [List.forall_mem_cons]
  exact ⟨maps_unary _ fun _ _ => .ok (free_str _),
    maps_unary _ fun v _ => Texts.free_onText _ v,
    maps_unary _ fun v _ => Texts.free_onText _ v,
    maps_ternary _ fun v a b _ _ _ => Texts.free_replace v a b,
    maps_binary _ fun v w _ _ => Texts.free_split v w,
    maps_binary _ fun v w _ _ => Texts.free_join v w,
    maps_binary _ fun v w _ _ => Texts.free_padLeft v w,
    maps_binary _ fun v w _ _ => Texts.free_padRight v w,
    maps_binary _ fun _ _ ha hb => Collections.free_push ha hb,
    nofun⟩

end Library

/-- The functions of the standard libraries make no handles. -/
theorem closed_standard (handle : Handle) :
    ∀ l ∈ Catalog.standard.libraries, ∀ g ∈ l.functions, g.Closed (Free handle) := by
  intro l hl g hg
  rcases Library.checked_or_unchecked l hl g hg with hchecked | hunchecked
  · exact Library.closed_checked (tame_free handle) g hchecked
  · exact Library.closed_unchecked g hunchecked

end

end ReportTemplate
