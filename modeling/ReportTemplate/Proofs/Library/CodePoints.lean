import Mathlib.Tactic.SplitIfs
import ReportTemplate.Library.Collections

/-!
# ReportTemplate.Proofs.Library.CodePoints — the order of strings

Strings are ordered by their code points, from the first on.  The bytes of their UTF-8 forms are ordered
in the same way.
-/

namespace ReportTemplate.Text

def codePoints (s : String) : List Nat := s.toList.map Char.toNat

/-- The bytes of a string in UTF-8. -/
def utf8 (s : String) : List UInt8 := s.toList.flatMap String.utf8EncodeChar

/-! ### Orders of encoded texts -/

section Encoded

variable {β : Type} [LT β] [Std.Asymm (α := β) (· < ·)]

theorem append_lt_append_left_iff (u : List β) {v w : List β} : u ++ v < u ++ w ↔ v < w := by
  induction u with
  | nil => rfl
  | cons b u ih =>
    have hirrefl : ¬ b < b := fun h => Std.Asymm.asymm _ _ h h
    rw [List.cons_append, List.cons_append, List.cons_lt_cons_iff, ih, or_iff_right hirrefl,
      and_iff_right rfl]

/-- The codes of characters keep the order of texts, if those of two characters differ in their order
before either ends. -/
theorem flatMap_lt_iff {code : Char → List β} (hne : ∀ c, code c ≠ [])
    (hlt : ∀ {c d : Char}, c < d → ∀ u v, code c ++ u < code d ++ v) (s t : List Char) :
    s.flatMap code < t.flatMap code ↔ s < t := by
  induction s generalizing t with
  | nil =>
    cases t with
    | nil => simp
    | cons d t =>
      obtain ⟨b, bs, hcode⟩ := List.exists_cons_of_ne_nil (hne d)
      simp [hcode]
  | cons c s ih =>
    cases t with
    | nil => simp
    | cons d t =>
      rw [List.flatMap_cons, List.flatMap_cons, List.cons_lt_cons_iff]
      rcases Std.lt_trichotomy c d with hcd | rfl | hdc
      · simp [hcd, hlt hcd]
      · rw [append_lt_append_left_iff, ih, or_iff_right Std.lt_irrefl, and_iff_right rfl]
      · have hback := List.lt_asymm (hlt hdc (t.flatMap code) (s.flatMap code))
        have hne : c ≠ d := fun h => Std.lt_irrefl (h ▸ hdc)
        simp [hback, hne, Std.le_of_lt hdc]

end Encoded

/-! ### Code points and bytes -/

theorem le_iff_of_lt_iff {β : Type} [LT β] {view : String → List β}
    (h : ∀ s t : String, view s < view t ↔ s < t) (s t : String) : s ≤ t ↔ ¬ view t < view s := by
  rw [← String.not_lt, h]

theorem le_iff_codePoints (s t : String) : s ≤ t ↔ ¬ codePoints t < codePoints s := by
  refine le_iff_of_lt_iff (fun s t => ?_) s t
  rw [codePoints, codePoints, List.map_eq_flatMap, List.map_eq_flatMap, String.lt_iff]
  refine flatMap_lt_iff (by simp) (fun {c d} h u v => ?_) s.toList t.toList
  exact List.cons_lt_cons_iff.mpr (.inl h)

theorem byte_lt_iff {m n : Nat} (hm : m < 256) (hn : n < 256) :
    UInt8.ofNat m < UInt8.ofNat n ↔ m < n := by
  rw [UInt8.lt_iff_toNat_lt, UInt8.toNat_ofNat', UInt8.toNat_ofNat', Nat.mod_eq_of_lt hm,
    Nat.mod_eq_of_lt hn]

theorem byte_eq_iff {m n : Nat} (hm : m < 256) (hn : n < 256) :
    UInt8.ofNat m = UInt8.ofNat n ↔ m = n := by
  rw [← UInt8.toNat_inj, UInt8.toNat_ofNat', UInt8.toNat_ofNat', Nat.mod_eq_of_lt hm,
    Nat.mod_eq_of_lt hn]

/-- The bytes of two characters differ in their order before either ends. -/
theorem utf8EncodeChar_lt {c d : Char} (h : c < d) (u v : List UInt8) :
    String.utf8EncodeChar c ++ u < String.utf8EncodeChar d ++ v := by
  have hmax : d.val.toNat < 1114112 := by
    rcases d.valid with hlow | hhigh <;> omega
  have h : c.val.toNat < d.val.toNat := h
  unfold String.utf8EncodeChar
  dsimp only
  generalize c.val.toNat = m at *
  generalize d.val.toNat = n at *
  -- Six bits after six bits, from the last ones on.
  have hhigh (k : Nat) : k / 4096 = k / 64 / 64 ∧ k / 262144 = k / 64 / 64 / 64 := by omega
  simp only [hhigh]
  split_ifs <;>
    simp (disch := omega) only [List.cons_append, List.nil_append, List.cons_lt_cons_iff,
      byte_lt_iff, byte_eq_iff] <;>
    omega

theorem le_iff_utf8 (s t : String) : s ≤ t ↔ ¬ utf8 t < utf8 s := by
  refine le_iff_of_lt_iff (fun s t => ?_) s t
  rw [utf8, utf8, String.lt_iff]
  exact flatMap_lt_iff (fun _ => String.utf8EncodeChar_ne_nil) utf8EncodeChar_lt s.toList t.toList

end ReportTemplate.Text
