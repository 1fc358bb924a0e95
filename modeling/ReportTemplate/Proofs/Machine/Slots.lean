import ReportTemplate.Machine

/-!
# ReportTemplate.Proofs.Machine.Slots — what reading and writing a slot does

A slot is read if it has a value, and written if the frame has it.
-/

namespace ReportTemplate.Machine

open Program (Slot)

variable {s : State} {slot : Slot}

/-- A computation that begins with a look at the state. -/
theorem get_bind {α : Type} (f : State → Exec α) : (get >>= f : Exec α) s = f s s := rfl

theorem load_eq {v : Value} (h : s.locals[slot]? = some (some v)) : load slot s = .ok v s := by
  unfold load
  rw [get_bind, h]
  rfl

theorem load_broken (h : ∀ v, s.locals[slot]? ≠ some (some v)) : load slot s = .error .broken s := by
  unfold load
  rw [get_bind]
  generalize s.locals[slot]? = o at h
  rcases o with - | - | v
  · rfl
  · rfl
  · exact absurd rfl (h v)

theorem store_eq (h : slot < s.locals.size) (v : Value) :
    store slot v s = .ok () { s with locals := s.locals.setIfInBounds slot (some v) } := by
  unfold store
  rw [get_bind, if_pos h]
  rfl

theorem store_broken (h : ¬ slot < s.locals.size) (v : Value) :
    store slot v s = .error .broken s := by
  unfold store
  rw [get_bind, if_neg h]
  rfl

end ReportTemplate.Machine
