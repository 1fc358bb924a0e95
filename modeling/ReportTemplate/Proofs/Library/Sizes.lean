import ReportTemplate.Proofs.Library.Limits

/-!
# ReportTemplate.Proofs.Library.Sizes — values within the limits

A value is bounded when every text and every list in it, at any depth of lists, is no larger than its
limit.  To be bounded is a tame property, so what checks sizes keeps it.  The other functions give values
whose parts are bounded, and each of them gives a value that is too large for some bounded arguments.
-/

namespace ReportTemplate

namespace Value

/-- A value, apart from what is in it, is no larger than its limit. -/
def Fits : Value → Prop
  | str s => s.utf8ByteSize ≤ maxTextSize
  | list items => items.length ≤ maxListLength
  | _ => True

instance : DecidablePred Fits
  | str s => inferInstanceAs (Decidable (s.utf8ByteSize ≤ maxTextSize))
  | list items => inferInstanceAs (Decidable (items.length ≤ maxListLength))
  | null | bool _ | int _ | float _ | document | log => inferInstanceAs (Decidable True)

/-- A value is another one, or stands in it at some depth of lists. -/
inductive Inside (u : Value) : Value → Prop
  | here : Inside u u
  | item {items : List Value} {v : Value} (mem : v ∈ items) (part : Inside u v) :
    Inside u (.list items)

/-- Every text and every list in a value is no larger than its limit. -/
def Bounded (v : Value) : Prop := ∀ u, Inside u v → u.Fits

theorem Bounded.fits {v : Value} (h : v.Bounded) : v.Fits := h v .here

theorem bounded_list {items : List Value} :
    (list items).Bounded ↔ items.length ≤ maxListLength ∧ ∀ v ∈ items, v.Bounded := by
  constructor
  · exact fun h => ⟨h.fits, fun v hv u hu => h u (.item hv hu)⟩
  · rintro ⟨hlength, hitems⟩ u hu
    cases hu with
    | here => exact hlength
    | item mem part => exact hitems _ mem u part

theorem bounded_of_fits {v : Value} (hv : ∀ items, v ≠ list items) (h : v.Fits) : v.Bounded := by
  intro u hu
  cases hu with
  | here => exact h
  | item mem part => exact absurd rfl (hv _)

theorem bounded_str {s : String} : (str s).Bounded ↔ s.utf8ByteSize ≤ maxTextSize :=
  ⟨fun h => h.fits, fun h => bounded_of_fits (v := str s) nofun h⟩

theorem tame_bounded : Tame Bounded where
  null := bounded_of_fits nofun trivial
  bool _ := bounded_of_fits nofun trivial
  int _ := bounded_of_fits nofun trivial
  float _ := bounded_of_fits nofun trivial
  str := bounded_str.mpr
  shorter hs h := bounded_str.mpr (Nat.le_trans h (bounded_str.mp hs))
  list h hitems := bounded_list.mpr ⟨h, hitems⟩
  items h := (bounded_list.mp h).2
  perm h hperm := bounded_list.mpr ⟨hperm.length_eq ▸ (bounded_list.mp h).1,
    fun v hv => (bounded_list.mp h).2 v (hperm.mem_iff.mpr hv)⟩

end Value

open Value (Bounded Fits bounded_list bounded_str bounded_of_fits)

/-! ### Functions that check no size -/

namespace Text

/-- The pieces of a split stand in the text. -/
theorem splitFrom_sublist (a : List Char) : ∀ (s : List Char) (done : List (List Char))
    (piece : List Char) (skip : Nat), ∀ p ∈ splitFrom a done piece skip s,
      p ∈ done ∨ p.Sublist (piece.reverse ++ s) := by
  intro s
  induction s with
  | nil =>
    intro done piece skip p hp
    rw [splitFrom, List.mem_reverse, List.mem_cons] at hp
    rcases hp with rfl | hp
    · exact .inr (List.sublist_append_left _ _)
    · exact .inl hp
  | cons c s ih =>
    intro done piece skip p hp
    rw [splitFrom] at hp
    split at hp
    · refine (ih done piece _ p hp).imp_right fun h => h.trans ?_
      exact (List.Sublist.refl _).append (List.sublist_cons_self c s)
    · split at hp
      · rcases ih _ [] _ p hp with hdone | h
        · rcases List.mem_cons.mp hdone with rfl | hdone
          · exact .inr (List.sublist_append_left _ _)
          · exact .inl hdone
        · refine .inr (h.trans ?_)
          exact (List.sublist_cons_self c s).trans (List.sublist_append_right _ _)
      · refine (ih done (c :: piece) 0 p hp).imp_right fun h => ?_
        rwa [List.reverse_cons, List.append_assoc, List.singleton_append] at h

theorem split_sublist {s a p : List Char} (h : p ∈ split s a) : p.Sublist s :=
  (splitFrom_sublist a s [] [] 0 p h).resolve_left List.not_mem_nil

end Text

namespace Library

/-- The parts of a value are bounded. -/
def PartsBounded (v : Value) : Prop := v.Fits → v.Bounded

theorem parts_str (s : String) : PartsBounded (.str s) := bounded_str.mpr

theorem Texts.parts_onText (f : List Char → List Char) (v : Value) :
    Gives PartsBounded (onText f v) :=
  (Gives.any _).bind fun _ _ => .ok (parts_str _)

theorem Texts.parts_replace (v wanted instead : Value) : Gives PartsBounded (replace v wanted instead) :=
  (Gives.any _).bind fun _ _ => (Gives.any _).bind fun _ _ => (Gives.any _).bind fun _ _ =>
    .ok (parts_str _)

theorem Texts.parts_split {v : Value} (hv : v.Bounded) (separator : Value) :
    Gives PartsBounded (split v separator) := by
  refine (gives_expectStr v).bind fun s hs => (Gives.any _).bind fun a _ => ?_
  split
  · exact .refused _
  · refine .ok fun hlength => bounded_list.mpr ⟨hlength, fun x hx => ?_⟩
    obtain ⟨piece, hpiece, rfl⟩ := List.mem_map.mp hx
    rw [hs, bounded_str, ← Text.byteSize_toList] at hv
    rw [bounded_str, Text.utf8ByteSize_ofList]
    exact Nat.le_trans (Text.byteSize_sublist (Text.split_sublist hpiece)) hv

theorem Texts.parts_join (v separator : Value) : Gives PartsBounded (join v separator) :=
  (Gives.any _).bind fun _ _ => (Gives.any _).bind fun _ _ => .ok (parts_str _)

theorem Texts.parts_padLeft (v width : Value) : Gives PartsBounded (padLeft v width) :=
  (Gives.any _).bind fun _ _ => .ok (parts_str _)

theorem Texts.parts_padRight (v width : Value) : Gives PartsBounded (padRight v width) :=
  (Gives.any _).bind fun _ _ => .ok (parts_str _)

theorem Collections.parts_push {v item : Value} (hv : v.Bounded) (hitem : item.Bounded) :
    Gives PartsBounded (push v item) :=
  (gives_expectList hv).bind fun _ hitems => .ok fun hlength => bounded_list.mpr ⟨hlength,
    List.forall_mem_append.mpr ⟨(bounded_list.mp hitems).2, List.forall_mem_singleton.mpr hitem⟩⟩

/-- What a function that checks no size gives on bounded values has bounded parts. -/
theorem parts_unchecked : ∀ g ∈ uncheckedFunctions, g.Maps Bounded PartsBounded := by
  unfold uncheckedFunctions
  simp only [List.forall_mem_cons]
  exact ⟨maps_unary _ fun _ _ => .ok (parts_str _),
    maps_unary _ fun v _ => Texts.parts_onText _ v,
    maps_unary _ fun v _ => Texts.parts_onText _ v,
    maps_ternary _ fun v a b _ _ _ => Texts.parts_replace v a b,
    maps_binary _ fun _ w hv _ => Texts.parts_split hv w,
    maps_binary _ fun v w _ _ => Texts.parts_join v w,
    maps_binary _ fun v w _ _ => Texts.parts_padLeft v w,
    maps_binary _ fun v w _ _ => Texts.parts_padRight v w,
    maps_binary _ fun _ _ hv hitem => Collections.parts_push hv hitem,
    nofun⟩

end Library

end ReportTemplate
