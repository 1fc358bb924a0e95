import ReportTemplate.Proofs.Syntax.Reads

/-!
# ReportTemplate.Proofs.Syntax.Outcomes — how the reading of a source can end

The classes of a source are read as far as they go, which always gives some list of them.  What stands
behind them decides: nothing is a source without a message or with messages about digits out of range
only, and anything else is reported at the furthest place behind these messages.
-/

namespace ReportTemplate.Syntax

open ReportTemplate.Syntax.Parser

namespace Parser

variable {α : Type}

/-- To read something again and again never fails. -/
theorem result_upTo_isSome (p : Parser α) (bound : List Located) (c : Cursor) :
    (result (upTo p bound) c).isSome = true := by
  induction bound generalizing c with
  | nil =>
    rw [result_upTo]
    split
    · rfl
    · rfl
    · next heq => cases heq
  | cons t bound ih =>
    rw [result_upTo]
    split
    · rfl
    · rfl
    · next a c' _ _ _ heq =>
      obtain ⟨rfl, rfl⟩ := List.cons.inj heq
      rw [Option.isSome_map]
      exact ih c'

end Parser

theorem Failure.merge_some (e : Option Failure) (f : Failure) : ∃ g, Failure.merge e (some f) = some g := by
  cases e with
  | none => exact ⟨f, rfl⟩
  | some e =>
    unfold Failure.merge
    dsimp only
    split
    · exact ⟨_, rfl⟩
    · split <;> exact ⟨_, rfl⟩

/-- The classes that tokens begin with, and where they end. -/
theorem exists_classes (size : Nat) (tokens : List Located) :
    ∃ classes c, result (many classDecl) ⟨0, 0, tokens⟩ = some (classes, c) ∧
      ((c.rest = [] ∧ parseTokens size tokens =
        if (outOfRanges (tokens.take c.index)).isEmpty then .ok ⟨classes⟩
        else .error (outOfRanges (tokens.take c.index))) ∨
      ∃ f, c.rest ≠ [] ∧
        Failure.merge (many classDecl ⟨0, 0, tokens⟩).2 (some ⟨c.index, ["end of input"]⟩) = some f ∧
        parseTokens size tokens =
          .error (outOfRanges (tokens.take c.index) ++ [unexpected size tokens f])) := by
  have hsome : (result (many classDecl) ⟨0, 0, tokens⟩).isSome = true :=
    result_upTo_isSome classDecl tokens ⟨0, 0, tokens⟩
  obtain ⟨⟨classes, c⟩, hread⟩ := Option.isSome_iff_exists.mp hsome
  refine ⟨classes, c, hread, ?_⟩
  have hrun : many classDecl ⟨0, 0, tokens⟩ =
      (some (classes, c), (many classDecl ⟨0, 0, tokens⟩).2) := Prod.ext hread rfl
  unfold parseTokens
  rw [hrun]
  obtain ⟨f, hf⟩ := Failure.merge_some (many classDecl ⟨0, 0, tokens⟩).2 ⟨c.index, ["end of input"]⟩
  dsimp only
  rw [hf]
  cases hrest : c.rest with
  | nil => exact .inl ⟨rfl, rfl⟩
  | cons t rest => exact .inr ⟨f, List.cons_ne_nil _ _, rfl, rfl⟩

/-- A source that cannot be read has messages, and all of them are errors. -/
theorem failures_of_parse {source : List Char} {found : List Diagnostic}
    (h : parse source = .error found) : found ≠ [] ∧ ∀ d ∈ found, d.isFailure = true := by
  have hmessages : ∀ ts : List Located, ∀ d ∈ outOfRanges ts, d.isFailure = true := by
    intro ts d hd
    obtain ⟨t, -, rfl⟩ := List.mem_map.mp hd
    rfl
  obtain ⟨classes, c, -, hcases⟩ := exists_classes (Text.byteSize source) (lex source)
  have hparse : parseTokens (Text.byteSize source) (lex source) = .error found := h
  rw [hparse] at hcases
  rcases hcases with ⟨-, hend⟩ | ⟨f, -, -, hend⟩
  · split at hend
    · cases hend
    · next hreported =>
      obtain rfl := Except.error.inj hend
      exact ⟨fun hnil => hreported (List.isEmpty_iff.mpr hnil), hmessages _⟩
  · obtain rfl := Except.error.inj hend
    refine ⟨by simp, fun d hd => ?_⟩
    rcases List.mem_append.mp hd with hd | hd
    · exact hmessages _ d hd
    · obtain rfl := List.mem_singleton.mp hd
      unfold unexpected
      split <;> rfl

end ReportTemplate.Syntax
